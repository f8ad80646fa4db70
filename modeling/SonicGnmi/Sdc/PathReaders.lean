import SonicGnmi.Bypass.Model
import SonicGnmi.Foundation.Loop
import SonicGnmi.Sdc.IncrementalConfig

/-!
# The readers of a path

Three parts of the server read the object that a gNMI path names: the patch
operation that `ConvertToJsonPatch` emits, the JSON client through `FixPath`, and
the bypass fast path through `parsePath`.  Each has its own rule for escapes: the
first copies the names into a JSON pointer, the second decodes `~1` in the key,
the third decodes `~1` and `~0` in the key and leaves out elements called
`CONFIG_DB` or `localhost` wherever they stand.

* `PointerSafe` — the names that the first two read alike;
* `ReadersAgree` — the three name the same object;
* `Readable`, `readers_agree_iff` — the names for which they do.
-/

namespace SonicGnmi.Sdc

open Foundation Gnmi GoText JsonClient List Option

/-! ## Escapes in one name -/

/-- Every `~` is followed by a `1`. -/
def onlySlashEscapes : List Char → Bool
  | [] => true
  | c :: rest =>
    if c = '~' then
      match rest with
      | [] => false
      | d :: rest => d = '1' && onlySlashEscapes rest
    else
      onlySlashEscapes rest

variable {c : Char} {chars : List Char} {names : List String} {name : String}

theorem unescape_cons_of_ne (hc : c ≠ '~') (rest : List Char) :
    unescape (c :: rest) = (unescape rest).map (c :: ·) := by
  cases rest <;> simp [unescape, hc]

theorem onlySlashEscapes_cons_of_ne (hc : c ≠ '~') (rest : List Char) :
    onlySlashEscapes (c :: rest) = onlySlashEscapes rest := by
  cases rest <;> simp [onlySlashEscapes, hc]

theorem replacePair_cons_of_ne (hc : c ≠ '~') (rest : List Char) :
    replacePair '~' '1' '/' (c :: rest) = c :: replacePair '~' '1' '/' rest := by
  cases rest <;> simp [replacePair, hc]

theorem replacePair_tilde_zero (rest : List Char) :
    replacePair '~' '1' '/' ('~' :: '0' :: rest) =
      '~' :: '0' :: replacePair '~' '1' '/' rest := by
  cases rest <;> simp [replacePair]

theorem replacePair_tilde_one (rest : List Char) :
    replacePair '~' '1' '/' ('~' :: '1' :: rest) =
      '/' :: replacePair '~' '1' '/' rest := by
  simp [replacePair]

theorem unescape_length {out : List Char} (h : unescape chars = some out) :
    out.length ≤ chars.length ∧ ('~' ∈ chars → out.length < chars.length) := by
  fun_induction unescape chars generalizing out with
  | case1 =>
    cases h
    simp
  | case2 | case5 => contradiction
  | case3 rest ih | case4 rest _ ih =>
    obtain ⟨tail, htail, rfl⟩ := map_eq_some_iff.1 h
    have := (ih htail).1
    simp only [length_cons]
    omega
  | case6 c rest hc ih =>
    obtain ⟨tail, htail, rfl⟩ := map_eq_some_iff.1 h
    obtain ⟨hle, hlt⟩ := ih htail
    refine ⟨by simpa using hle, fun hmem => ?_⟩
    rcases mem_cons.1 hmem with heq | hmem
    · exact absurd heq.symm hc
    · simpa using hlt hmem

theorem unescape_eq_self_iff (chars : List Char) : unescape chars = some chars ↔ '~' ∉ chars := by
  constructor
  · intro h hmem
    exact absurd ((unescape_length h).2 hmem) (lt_irrefl _)
  intro h
  induction chars with
  | nil => rfl
  | cons c rest ih =>
    rw [mem_cons, not_or] at h
    rw [unescape_cons_of_ne (Ne.symm h.1), ih h.2]
    rfl

/-- Replacing `~1` alone shortens a text at most as much as decoding. -/
theorem unescape_length_le_replacePair {out : List Char} (h : unescape chars = some out) :
    out.length ≤ (replacePair '~' '1' '/' chars).length := by
  fun_induction unescape chars generalizing out with
  | case1 =>
    cases h
    simp [replacePair]
  | case2 | case5 => contradiction
  | case3 rest ih =>
    obtain ⟨tail, htail, rfl⟩ := map_eq_some_iff.1 h
    rw [replacePair_tilde_zero]
    exact Nat.succ_le_succ ((ih htail).trans (Nat.le_succ _))
  | case4 rest _ ih =>
    obtain ⟨tail, htail, rfl⟩ := map_eq_some_iff.1 h
    rw [replacePair_tilde_one]
    exact Nat.succ_le_succ (ih htail)
  | case6 c rest hc ih =>
    obtain ⟨tail, htail, rfl⟩ := map_eq_some_iff.1 h
    rw [replacePair_cons_of_ne hc]
    exact Nat.succ_le_succ (ih htail)

/-- A key is read alike in a pointer and through `FixPath` iff its only escapes
are those of slashes. -/
theorem unescape_eq_replacePair_iff (chars : List Char) :
    unescape chars = some (replacePair '~' '1' '/' chars) ↔
      onlySlashEscapes chars = true := by
  fun_induction unescape chars with
  | case1 => simp [replacePair, onlySlashEscapes]
  | case2 => simp [onlySlashEscapes]
  | case3 rest ih =>
    rw [replacePair_tilde_zero]
    have hfalse : onlySlashEscapes ('~' :: '0' :: rest) = false := by
      simp [onlySlashEscapes]
    rw [hfalse]
    simp only [map_eq_some_iff, cons.injEq, true_and, Bool.false_eq_true, iff_false]
    rintro ⟨tail, htail, rfl⟩
    have := unescape_length_le_replacePair htail
    rw [length_cons] at this
    omega
  | case4 rest _ ih =>
    rw [replacePair_tilde_one]
    simpa [onlySlashEscapes] using ih
  | case5 d rest h0 h1 => simp [onlySlashEscapes, h1]
  | case6 c rest hc ih =>
    rw [replacePair_cons_of_ne hc, onlySlashEscapes_cons_of_ne hc]
    simpa using ih

theorem not_mem_replacePair (h : onlySlashEscapes chars = true) :
    '~' ∉ replacePair '~' '1' '/' chars := by
  fun_induction onlySlashEscapes chars with
  | case1 => simp [replacePair]
  | case2 => contradiction
  | case3 d rest ih =>
    rw [Bool.and_eq_true, decide_eq_true_eq] at h
    obtain ⟨rfl, h⟩ := h
    simpa [replacePair] using ih h
  | case4 c rest hc ih =>
    rw [replacePair_cons_of_ne hc, mem_cons, not_or]
    exact ⟨Ne.symm hc, ih h⟩

/-! ## The path of an operation -/

variable (order : RangeOrder String String)

theorem elemText_of_no_keys {e : PathElem} (h : e.key = ∅) : elemText order e = e.name ++ "/" := by
  have hvisit : order.visit e.key = [] := by
    have hperm := order.perm e.key
    rw [h] at hperm ⊢
    exact perm_nil.1 hperm
  rw [elemText, hvisit]
  simp

theorem jsonPath_toList {elems : List PathElem}
    (hne : elems ≠ []) (hkeys : ∀ e ∈ elems, e.key = ∅) :
    (jsonPath order elems).toList =
      '/' :: intercalate ['/'] ((elemNames elems).map String.toList) := by
  -- The loop leaves a slash after each name; the last one is cut off.
  have hloop : ∀ (elems : List PathElem) (text : String), elems ≠ [] → (∀ e ∈ elems, e.key = ∅) →
      elems.foldl (fun text e => text ++ elemText order e) text =
        text ++ String.ofList (intercalate ['/'] ((elemNames elems).map String.toList)) ++
          "/" := by
    intro elems
    induction elems with
    | nil => exact fun _ hne _ => absurd rfl hne
    | cons e rest ih =>
      intro text _ hkeys
      rw [foldl_cons, elemText_of_no_keys order (hkeys e mem_cons_self)]
      cases rest with
      | nil =>
        refine String.toList_inj.1 ?_
        simp [elemNames, intercalate]
      | cons next more =>
        rw [ih _ (cons_ne_nil _ _) fun e he => hkeys e (mem_cons_of_mem _ he)]
        refine String.toList_inj.1 ?_
        simp [elemNames, intercalate]
  rw [jsonPath, hloop elems "/" hne hkeys, trimSuffix_append]
  simp

theorem mapM_unescape_eq_some_iff {parts : List (List Char)} :
    (parts.mapM fun token => (unescape token).map String.ofList) = some names ↔
      Forall₂ (fun part name => unescape part = some name.toList) parts names := by
  rw [Loop.mapM_eq_some_iff]
  have htoken : ∀ part name, (unescape part).map String.ofList = some name ↔
      unescape part = some name.toList := by
    intro part name
    rw [map_eq_some_iff]
    constructor
    · rintro ⟨out, hout, rfl⟩
      rw [hout, String.toList_ofList]
    · intro hpart
      exact ⟨name.toList, hpart, String.ofList_toList⟩
  simp [htoken]

/-- The tokens of joined names are the names decoded one by one, unless a name
has a slash of its own. -/
theorem pointerTokens_join_iff {path : String} {tokens : List String}
    (hpath : path.toList = '/' :: intercalate ['/'] (names.map String.toList))
    (hne : names ≠ []) (hlength : tokens.length = names.length) :
    pointerTokens path = some tokens ↔ (∀ name ∈ names, '/' ∉ name.toList) ∧
        Forall₂ (fun name token => unescape name.toList = some token.toList) names
          tokens := by
  have hparts : names.map String.toList ≠ [] := by
    simpa using hne
  have htokens : pointerTokens path = some tokens ↔
      Forall₂ (fun part name => unescape part = some name.toList)
        ((names.map String.toList).flatMap (splitChars '/')) tokens := by
    rw [pointerTokens, hpath]
    simp only [if_true]
    rw [splitChars_intercalate_flatMap hparts, mapM_unescape_eq_some_iff]
  have hplain : (∀ name ∈ names, '/' ∉ name.toList) →
      (names.map String.toList).flatMap (splitChars '/') = names.map String.toList := by
    intro hslash
    rw [← splitChars_intercalate_flatMap hparts]
    refine splitChars_intercalate hparts ?_
    simpa using hslash
  rw [htokens]
  constructor
  · intro h
    have hslash : ∀ name ∈ names, '/' ∉ name.toList := by
      have hcount := h.length_eq
      rw [hlength] at hcount
      have hnone := not_mem_of_length_flatMap (by
        rw [hcount]
        simp)
      simpa using hnone
    rw [hplain hslash, forall₂_map_left_iff] at h
    exact ⟨hslash, h⟩
  · rintro ⟨hslash, h⟩
    rw [hplain hslash, forall₂_map_left_iff]
    exact h

theorem length_fixPath (names : List String) : (fixPath names).length = names.length := by
  unfold fixPath
  split <;> rfl

/-- What `FixPath` and the pointer make of names without slashes. -/
theorem forall₂_fixPath_iff (names : List String) :
    Forall₂ (fun name token => unescape name.toList = some token.toList) names
        (fixPath names) ↔
      (∀ name ∈ names.take 1, '~' ∉ name.toList) ∧
        (∀ name ∈ (names.drop 1).take 1, onlySlashEscapes name.toList = true) ∧
        ∀ name ∈ names.drop 2, '~' ∉ name.toList := by
  match names with
  | [] => simp [fixPath]
  | [table] => simp [fixPath, unescape_eq_self_iff]
  | table :: key :: rest =>
    simp [fixPath, fixName, unescape_eq_self_iff, unescape_eq_replacePair_iff]

/-- Names without a slash, and with a `~` only in the key and only as `~1`. -/
structure PointerSafe (names : List String) : Prop where
  noSlash : ∀ name ∈ names, '/' ∉ name.toList
  table : ∀ name ∈ names.take 1, '~' ∉ name.toList
  key : ∀ name ∈ (names.drop 1).take 1, onlySlashEscapes name.toList = true
  rest : ∀ name ∈ names.drop 2, '~' ∉ name.toList

/-- The pointer and the JSON client name the same tokens iff the names are
safe. -/
theorem pointerTokens_eq_fixPath_iff {path : String}
    (hpath : path.toList = '/' :: intercalate ['/'] (names.map String.toList)) (hne : names ≠ []) :
    pointerTokens path = some (fixPath names) ↔ PointerSafe names := by
  rw [pointerTokens_join_iff hpath hne (length_fixPath names), forall₂_fixPath_iff]
  exact ⟨fun ⟨hslash, htable, hkey, hrest⟩ => ⟨hslash, htable, hkey, hrest⟩,
    fun h => ⟨h.noSlash, h.table, h.key, h.rest⟩⟩

/-! ## The three readers -/

/-- The patch operation, the JSON client and, for a path with a key, the fast
path name the same object. -/
def ReadersAgree (order : RangeOrder String String) (pathPrefix : Option Path) (path : Path) :
    Prop :=
  ∃ elems, gnmiFullPath pathPrefix path = .ok (some elems) ∧
    pointerTokens (jsonPath order elems) = some (JsonClient.fixPath (elemNames elems)) ∧
    (2 ≤ elems.length → (JsonClient.fixPath (elemNames elems)).take 2 =
        [(Bypass.parsePath pathPrefix (some path)).table,
          (Bypass.parsePath pathPrefix (some path)).key])

/-- Names that are safe in a pointer, with a table and a key that the fast path
does not leave out. -/
structure Readable (names : List String) : Prop extends PointerSafe names where
  kept : 2 ≤ names.length → ∀ name ∈ names.take 2, name ≠ "CONFIG_DB" ∧ name ≠ "localhost"

theorem readable_iff : Readable names ↔ PointerSafe names ∧
    (2 ≤ names.length → ∀ name ∈ names.take 2, name ≠ "CONFIG_DB" ∧ name ≠ "localhost") :=
  ⟨fun h => ⟨h.toPointerSafe, h.kept⟩, fun h => ⟨h.1, h.2⟩⟩

/-- The fast path keeps this element. -/
def keptName (name : String) : Bool := !(name = "CONFIG_DB" || name = "localhost")

theorem keptName_iff : keptName name = true ↔ name ≠ "CONFIG_DB" ∧ name ≠ "localhost" := by
  simp [keptName]

/-- A key that decodes with slashes only is read alike by the fast path and the
JSON client. -/
theorem decodeJsonPointer_eq_fixName (h : onlySlashEscapes name.toList = true) :
    Bypass.decodeJsonPointer name = fixName name := by
  rw [Bypass.decodeJsonPointer, fixName, replacePair_of_not_mem (not_mem_replacePair h)]

theorem decodeJsonPointer_of_not_mem (h : '~' ∉ name.toList) :
    Bypass.decodeJsonPointer name = name := by
  rw [Bypass.decodeJsonPointer, replacePair_of_not_mem h, replacePair_of_not_mem h,
    String.ofList_toList]

theorem fixName_of_not_kept (h : keptName name = false) : fixName name = name := by
  have hname : name = "CONFIG_DB" ∨ name = "localhost" := by
    simpa [keptName, or_iff_not_imp_left] using h
  rcases hname with rfl | rfl <;> decide +kernel

/-- The fast path agrees on table and key iff it keeps both. -/
theorem fastPath_agrees_iff {table key : String} {rest : List String}
    (hkey : onlySlashEscapes key.toList = true) (hrest : ∀ name ∈ rest, '~' ∉ name.toList) :
    [table, fixName key] = [((table :: key :: rest).filter keptName).getD 0 "",
          Bypass.decodeJsonPointer (((table :: key :: rest).filter keptName).getD 1 "")] ↔
      keptName table = true ∧ keptName key = true := by
  have hmem : ∀ names : List String, keptName ((names.filter keptName).getD 0 "") = true := by
    intro names
    cases hkept : names.filter keptName with
    | nil => decide
    | cons name _ => exact (mem_filter.1 (hkept ▸ mem_cons_self)).2
  have hplain : '~' ∉ ((rest.filter keptName).getD 0 "").toList := by
    cases hkept : rest.filter keptName with
    | nil => simp
    | cons name _ => exact hrest name (mem_filter.1 (hkept ▸ mem_cons_self)).1
  constructor
  · intro h
    simp only [cons.injEq, and_true] at h
    obtain ⟨htable, hfound⟩ := h
    have htable : keptName table = true := htable ▸ hmem _
    refine ⟨htable, ?_⟩
    by_contra hskip
    rw [Bool.not_eq_true] at hskip
    have hparts : ((table :: key :: rest).filter keptName).getD 1 "" =
        (rest.filter keptName).getD 0 "" := by
      simp [htable, hskip]
    -- What the fast path takes for the key is a name it keeps, without a `~`.
    rw [hparts, fixName_of_not_kept hskip, decodeJsonPointer_of_not_mem hplain] at hfound
    rw [hfound, hmem] at hskip
    contradiction
  · rintro ⟨htable, hkept⟩
    simp [htable, hkept, decodeJsonPointer_eq_fixName hkey]

/-- **The readers of a path.**  For a path below `CONFIG_DB/localhost` with one to
four further elements and without keys, the three readers name the same object
iff the names are readable. -/
theorem readers_agree_iff (order : RangeOrder String String) (pathPrefix : Option Path)
    (path : Path) (names : List String) (helem : path.elem ≠ [])
    (hnames : (netPath (pathPrefix.getD {}) path).map (·.name) =
      "CONFIG_DB" :: "localhost" :: names)
    (hkeys : ∀ e ∈ netPath (pathPrefix.getD {}) path, e.key = ∅)
    (hlength : 1 ≤ names.length ∧ names.length ≤ 4) :
    ReadersAgree order pathPrefix path ↔ Readable names := by
  obtain ⟨database, tail, hnet, hdatabase, htail⟩ := List.map_eq_cons_iff.1 hnames
  obtain ⟨instance', elems, rfl, hinstance, helems⟩ := List.map_eq_cons_iff.1 htail
  rw [hnet] at hkeys
  have hfull : gnmiFullPath pathPrefix path = .ok (some elems) := by
    simp [gnmiFullPath, hnet, helem]
  have hne : elems ≠ [] := by
    rintro rfl
    simp [← helems] at hlength
  have hnames' : elemNames elems = names := helems
  have hpath := jsonPath_toList order hne
    (fun e he => hkeys e (List.mem_cons_of_mem _ (List.mem_cons_of_mem _ he)))
  rw [hnames'] at hpath
  have htokens := pointerTokens_eq_fixPath_iff hpath
    (List.ne_nil_of_length_pos (by omega))
  have hparts : Bypass.pathParts pathPrefix (some path) = names.filter keptName := by
    change ((netPath (pathPrefix.getD {}) path).map (·.name)).filter keptName = _
    rw [hnet, List.map_cons, List.map_cons, hdatabase, hinstance, helems]
    rfl
  have hlen : elems.length = names.length := by
    rw [← helems, List.length_map]
  have hagree : ReadersAgree order pathPrefix path ↔
      PointerSafe names ∧
        (2 ≤ names.length → (JsonClient.fixPath names).take 2 = [(names.filter keptName).getD 0 "",
            Bypass.decodeJsonPointer ((names.filter keptName).getD 1 "")]) := by
    unfold ReadersAgree
    simp only [hfull, Except.ok.injEq, Option.some.injEq, exists_eq_left', hnames', hlen]
    rw [htokens, Bypass.parsePath]
    simp [hparts]
  rw [hagree, readable_iff]
  refine and_congr_right fun hsafe => forall_congr' fun htwo => ?_
  match names, htwo with
  | table :: key :: rest, _ =>
    have hfast := @fastPath_agrees_iff table key rest (hsafe.key key (by simp))
      (by simpa using hsafe.rest)
    rw [keptName_iff, keptName_iff] at hfast
    simpa [JsonClient.fixPath] using hfast

def entryPath (table key : String) : Path where
  elem := [{ name := "CONFIG_DB" }, { name := "localhost" }, { name := table }, { name := key }]

/-- `~0` in the key: the pointer and the fast path read `a~b`, the JSON client
reads `a~0b`. -/
theorem readers_disagree_on_tilde :
    pointerTokens (jsonPath RangeOrder.stored ((entryPath "VNET" "a~0b").elem.drop 2)) =
        some ["VNET", "a~b"] ∧
      JsonClient.fixPath ["VNET", "a~0b"] = ["VNET", "a~0b"] ∧
      (Bypass.parsePath none (some (entryPath "VNET" "a~0b"))).key = "a~b" ∧
      ¬ ReadersAgree RangeOrder.stored none (entryPath "VNET" "a~0b") := by
  refine ⟨by decide +kernel, by decide +kernel, by decide +kernel, ?_⟩
  rintro ⟨elems, hfull, htokens, -⟩
  have helems : elems = (entryPath "VNET" "a~0b").elem.drop 2 := by
    simpa [gnmiFullPath, netPath, entryPath, eq_comm] using hfull
  subst helems
  revert htokens
  decide +kernel

/-- A route below a VNET, with the slash of its address escaped. -/
theorem readers_agree_on_route :
    ReadersAgree RangeOrder.stored none
      (entryPath "VNET_ROUTE_TUNNEL" "Vnet1|10.0.0.0~124") := by
  refine (readers_agree_iff RangeOrder.stored none
    (entryPath "VNET_ROUTE_TUNNEL" "Vnet1|10.0.0.0~124")
    ["VNET_ROUTE_TUNNEL", "Vnet1|10.0.0.0~124"] (by simp [entryPath]) rfl ?_ (by decide)).2 ?_
  · intro e he
    simp only [netPath, entryPath, Option.getD_none, List.nil_append, List.mem_cons,
      List.not_mem_nil, or_false] at he
    rcases he with rfl | rfl | rfl | rfl <;> rfl
  · exact ⟨⟨by decide +kernel, by decide +kernel, by decide +kernel, by decide +kernel⟩,
      fun _ => by decide +kernel⟩

end SonicGnmi.Sdc
