import DocSite.Section.Function
import DocSite.Proofs.Fields
import DocSite.Proofs.Text
import DocSite.Proofs.Text.Case
import Mathlib.Data.List.Basic

/-!
The types that the text of a signature gives to its parameters. Both readers of such a text cut it
at every comma, those inside a type included, and one of them takes the first closing parenthesis
for the end of the list. So types come through exactly as long as they have no such characters.
-/

namespace DocSite.Section

open Text Api

/-- A parameter and its type. -/
def annotated (name : String) (type : List Char) : List Char := name.toList ++ ':' :: ' ' :: type

def annotatedList (typed : List (String × List Char)) : List Char :=
  ", ".toList.intercalate (typed.map fun t => annotated t.1 t.2)

/-- The text of a signature that gives a type to every parameter. -/
def annotatedSignature (typed : List (String × List Char)) (result : List Char) : List Char :=
  '(' :: annotatedList typed ++ ')' :: " -> ".toList ++ result

/-- Names that the parameters of one signature can have. -/
structure AreNames (names : List String) : Prop where
  identifiers : ∀ n ∈ names, isIdentifier n.toList = true
  nodup : names.Nodup

theorem AreNames.isIdentifier {typed : List (String × List Char)}
    (h : AreNames (typed.map Prod.fst)) {t : String × List Char} (ht : t ∈ typed) :
    isIdentifier t.1.toList = true :=
  h.identifiers _ (List.mem_map_of_mem ht)

section Pieces

variable {name : String} {type u : List Char} {typed : List (String × List Char)}

theorem strip_entry (h : isIdentifier name.toList = true) (u : List Char) :
    strip (name.toList ++ ':' :: u) = name.toList ++ ':' :: stripRight u :=
  strip_append_cons (fun _ ha => not_isBlank_of_isIdentifier h (List.mem_of_mem_head? ha)) rfl u

theorem cutAt?_entry (h : isIdentifier name.toList = true) (u : List Char) :
    cutAt? [':'] (name.toList ++ ':' :: u) = some (name.toList, u) :=
  cutAt?_append (not_mem_of_isIdentifier (by decide) h) u

theorem ofList_strip_name (h : isIdentifier name.toList = true) :
    String.ofList (strip name.toList) = name := by
  rw [strip_of_forall fun c hc => not_isBlank_of_isIdentifier h hc, String.ofList_toList]

/-- The stripped pieces of a parameter list are those of its entries. -/
theorem map_strip_annotatedList (h : typed ≠ []) :
    (splitChar ',' (annotatedList typed)).map strip =
      typed.flatMap fun t => (splitChar ',' (annotated t.1 t.2)).map strip := by
  obtain ⟨t, ts, rfl⟩ := List.exists_cons_of_ne_nil h
  have hgap (u : List Char) :
      (splitChar ',' ([' '] ++ u)).map strip = (splitChar ',' u).map strip :=
    map_strip_splitChar_blanks rfl (by simp [isBlank]) u
  rw [annotatedList, List.map_cons, show ", ".toList = ',' :: [' '] from rfl,
    splitChar_intercalate, List.map_append, List.flatMap_cons, List.map_flatMap, List.flatMap_map]
  simp only [hgap]

theorem splitChar_annotated (h : isIdentifier name.toList = true) (type : List Char) :
    ∃ u more, splitChar ',' (annotated name type) = (name.toList ++ ':' :: u) :: more := by
  have hname : ',' ∉ name.toList ++ [':'] := by
    simpa using not_mem_of_isIdentifier (by decide) h
  obtain ⟨piece, pieces, -, hsplit⟩ := splitChar_append_of_not_mem hname (' ' :: type)
  refine ⟨piece, pieces, ?_⟩
  simpa [annotated] using hsplit

theorem splitChar_annotated_of_not_mem (h : isIdentifier name.toList = true) (htype : ',' ∉ type) :
    splitChar ',' (annotated name type) = [annotated name type] := by
  apply splitChar_of_not_mem
  simpa [annotated, htype] using not_mem_of_isIdentifier (by decide) h

end Pieces

section TypesIn

variable {key name : String} {type v params : List Char} {typed : List (String × List Char)}

theorem typesIn_strip (params : List Char) : typesIn (strip params) = typesIn params := by
  rw [typesIn, map_strip_splitChar_strip rfl, typesIn]

theorem readTyped_entry (h : isIdentifier name.toList = true) (u : List Char) :
    readTyped (strip (name.toList ++ ':' :: u)) = (strip name.toList, some (strip u)) := by
  rw [strip_entry h, readTyped, cutAt?_entry h]
  simp only [strip_stripRight]

theorem isPiece_entry (h : isIdentifier name.toList = true) (u : List Char) :
    (!(strip (name.toList ++ ':' :: u)).isEmpty && strip (name.toList ++ ':' :: u) ≠ ['*']) =
      true := by
  have hcolon : ':' ∈ strip (name.toList ++ ':' :: u) := by simp [strip_entry h]
  have hne : strip (name.toList ++ ':' :: u) ≠ ['*'] := by
    intro heq
    rw [heq] at hcolon
    simp at hcolon
  simp [hne, List.ne_nil_of_mem hcolon]

/-- Every parameter is found, whatever the types are. -/
theorem typesIn_finds (h : AreNames (typed.map Prod.fst)) (hmem : (name, type) ∈ typed) :
    (typesIn (annotatedList typed)).get? name ≠ none := by
  have hname := h.isIdentifier hmem
  obtain ⟨u, more, hsplit⟩ := splitChar_annotated hname type
  have hpiece : strip (name.toList ++ ':' :: u) ∈
      (splitChar ',' (annotatedList typed)).map strip := by
    rw [map_strip_annotatedList (List.ne_nil_of_mem hmem), List.mem_flatMap]
    exact ⟨_, hmem, by simp [hsplit]⟩
  rw [typesIn, ne_eq, OrderedMap.get?_ofEntries_eq_none, List.map_map]
  refine fun hnone => hnone (List.mem_map.mpr
    ⟨_, List.mem_filter.mpr ⟨hpiece, isPiece_entry hname u⟩, ?_⟩)
  rw [Function.comp_apply, readTyped_entry hname]
  exact ofList_strip_name hname

theorem readTyped_eq_some {p : List Char} (h : (readTyped p).2 = some v) :
    ∃ before after, p = before ++ ':' :: after ∧ v = strip after := by
  unfold readTyped at h
  split at h
  · rename_i before after hcut
    exact ⟨before, after, cutAt?_eq_some hcut, (Option.some.inj h).symm⟩
  · cases h

/-- No type that is found has a comma. -/
theorem comma_not_mem_typesIn (h : (typesIn params).get? key = some (some v)) : ',' ∉ v := by
  obtain ⟨p, hp, hread⟩ := List.mem_map.mp (OrderedMap.mem_ofEntries (OrderedMap.mem_of_get? h))
  obtain ⟨piece, hpiece, rfl⟩ := List.mem_map.mp (List.mem_filter.mp hp).1
  obtain ⟨before, after, heq, rfl⟩ := readTyped_eq_some (congrArg Prod.snd hread)
  intro hmem
  have hafter := (strip_isInfix after).subset hmem
  have hstrip : ',' ∈ strip piece := by simp [heq, hafter]
  exact not_mem_of_mem_splitChar hpiece ((strip_isInfix piece).subset hstrip)

/-- The pieces of a list whose types have no commas are its entries. -/
theorem map_strip_entries (h : AreNames (typed.map Prod.fst))
    (hcomma : ∀ t ∈ typed, ',' ∉ t.2) (hne : typed ≠ []) :
    (splitChar ',' (annotatedList typed)).map strip =
      typed.map fun t => strip (annotated t.1 t.2) := by
  have hentry : ∀ t ∈ typed, (splitChar ',' (annotated t.1 t.2)).map strip =
      [strip (annotated t.1 t.2)] := by
    intro t ht
    rw [splitChar_annotated_of_not_mem (h.isIdentifier ht) (hcomma t ht), List.map_singleton]
  rw [map_strip_annotatedList hne, List.flatMap_congr hentry, ← List.map_eq_flatMap]

theorem typesIn_get? (h : AreNames (typed.map Prod.fst)) (hcomma : ∀ t ∈ typed, ',' ∉ t.2)
    (hmem : (name, type) ∈ typed) :
    (typesIn (annotatedList typed)).get? name = some (some (strip type)) := by
  have hkept : ((typed.map fun t => strip (annotated t.1 t.2)).filter fun p =>
      !p.isEmpty && p ≠ ['*']) = typed.map fun t => strip (annotated t.1 t.2) := by
    apply List.filter_eq_self.mpr
    intro p hp
    obtain ⟨t, ht, rfl⟩ := List.mem_map.mp hp
    exact isPiece_entry (h.isIdentifier ht) _
  have hread : ∀ t ∈ typed, ((fun p => (String.ofList (readTyped p).1, (readTyped p).2)) ∘
      fun t : String × List Char => strip (annotated t.1 t.2)) t = (t.1, some (strip t.2)) := by
    intro t ht
    rw [Function.comp_apply, annotated, readTyped_entry (h.isIdentifier ht), strip_cons rfl,
      ofList_strip_name (h.isIdentifier ht)]
  rw [typesIn, map_strip_entries h hcomma (List.ne_nil_of_mem hmem), hkept, List.map_map,
    List.map_congr_left hread]
  apply OrderedMap.get?_ofEntries_of_nodup
  · rw [List.map_map]
    exact h.nodup
  · exact List.mem_map_of_mem (f := fun t : String × List Char => (t.1, some (strip t.2))) hmem

end TypesIn

section Merging

variable {types : OrderedMap (Option (List Char))} {ps : List Parameter}

/-- The entries of a parameter list with a star before the first one taken by name only. -/
def starred (entries : List (ParamKind × List Char)) : List (List Char) :=
  let front := entries.takeWhile (·.1 ≠ .keyword)
  let back := entries.dropWhile (·.1 ≠ .keyword)
  front.map Prod.snd ++ if back.isEmpty then [] else ['*'] :: back.map Prod.snd

theorem starred_cons (kind : ParamKind) (entry : List Char)
    (entries : List (ParamKind × List Char)) : starred ((kind, entry) :: entries) =
      if kind = .keyword then ['*'] :: entry :: entries.map Prod.snd
      else entry :: starred entries := by
  by_cases h : kind = .keyword
  · subst h
    rfl
  · rw [if_neg h, starred, starred, List.takeWhile_cons, List.dropWhile_cons]
    simp only [ne_eq, h, not_false_eq_true, decide_true, if_true]
    rfl

/-- A parameter as it is written with the type that was found. -/
def withFound (types : OrderedMap (Option (List Char))) (p : Parameter) : List Char :=
  withDefault p ((types.get? p.name).getD none)

theorem mergeParams_cons {p : Parameter} (h : types.get? p.name ≠ none) (started : Bool) :
    mergeParams types started (p :: ps) =
      if p.kind = .keyword && !started then
        ['*'] :: withFound types p :: mergeParams types true ps
      else withFound types p :: mergeParams types started ps := by
  obtain ⟨type?, htype⟩ := Option.ne_none_iff_exists'.mp h
  rw [mergeParams, withFound, htype]
  rfl

theorem mergeParams_started (h : ∀ p ∈ ps, types.get? p.name ≠ none) :
    mergeParams types true ps = ps.map (withFound types) := by
  induction ps with
  | nil => rfl
  | cons p ps ih =>
    rw [mergeParams_cons (h p (by simp)), ih fun q hq => h q (List.mem_cons_of_mem _ hq)]
    simp

theorem mergeParams_eq (h : ∀ p ∈ ps, types.get? p.name ≠ none) :
    mergeParams types false ps = starred (ps.map fun p => (p.kind, withFound types p)) := by
  induction ps with
  | nil => rfl
  | cons p ps ih =>
    have hrest : ∀ q ∈ ps, types.get? q.name ≠ none := fun q hq => h q (List.mem_cons_of_mem _ hq)
    rw [mergeParams_cons (h p (by simp)), ih hrest, mergeParams_started hrest, List.map_cons,
      starred_cons, List.map_map]
    by_cases hkind : p.kind = .keyword <;> simp [hkind, Function.comp_def]

end Merging

section Totals

variable {α : Type} {m : List Char → Nat} {sep : List Char} {f g : α → List Char} {xs : List α}

/-- The measures of several texts together. -/
def total (m : List Char → Nat) : List (List Char) → Nat
  | [] => 0
  | t :: ts => m t + total m ts

theorem total_intercalate (hm : ∀ as bs, m (as ++ bs) = m as + m bs) (sep : List Char)
    (ts : List (List Char)) :
    m (sep.intercalate ts) = total m ts + (ts.length - 1) * m sep := by
  have hnil : m [] = 0 := by
    have h := hm [] []
    rw [List.append_nil] at h
    omega
  induction ts with
  | nil => simp [total, hnil]
  | cons t ts ih =>
    cases ts with
    | nil => simp [total]
    | cons u ts =>
      rw [List.intercalate_cons_cons, hm, hm, ih]
      simp only [total, List.length_cons, Nat.add_sub_cancel, Nat.add_mul]
      omega

/-- The star counts alike whatever the entries are. -/
theorem total_starred (kind : α → ParamKind) (f : α → List Char) (xs : List α) :
    total m (starred (xs.map fun x => (kind x, f x))) =
      total m (xs.map f) + if xs.any fun x => kind x = .keyword then m ['*'] else 0 := by
  induction xs with
  | nil => rfl
  | cons x xs ih =>
    have hsnd : (Prod.snd ∘ fun x => (kind x, f x)) = f := rfl
    rw [List.map_cons, starred_cons, List.map_map, hsnd, List.map_cons, List.any_cons]
    by_cases hkind : kind x = .keyword
    · rw [if_pos hkind, decide_eq_true hkind, Bool.true_or, if_pos rfl]
      simp only [total]
      omega
    · rw [if_neg hkind, decide_eq_false hkind, Bool.false_or, total, ih, total]
      omega

theorem length_starred (kind : α → ParamKind) (f g : α → List Char) (xs : List α) :
    (starred (xs.map fun x => (kind x, f x))).length =
      (starred (xs.map fun x => (kind x, g x))).length := by
  induction xs with
  | nil => rfl
  | cons x xs ih =>
    rw [List.map_cons, List.map_cons, starred_cons, starred_cons]
    split <;> simp [ih]

theorem eq_of_total_eq (hle : ∀ x ∈ xs, m (f x) ≤ m (g x))
    (htotal : total m (xs.map f) = total m (xs.map g)) : ∀ x ∈ xs, m (f x) = m (g x) := by
  have htotals (ys : List α) (hys : ∀ y ∈ ys, m (f y) ≤ m (g y)) :
      total m (ys.map f) ≤ total m (ys.map g) := by
    induction ys with
    | nil => exact Nat.le_refl _
    | cons y ys ih =>
      exact Nat.add_le_add (hys y (by simp)) (ih fun z hz => hys z (List.mem_cons_of_mem _ hz))
  induction xs with
  | nil => simp
  | cons y ys ih =>
    have hys : ∀ z ∈ ys, m (f z) ≤ m (g z) := fun z hz => hle z (List.mem_cons_of_mem _ hz)
    have hy := hle y (by simp)
    have hrest := htotals ys hys
    simp only [List.map_cons, total] at htotal
    intro x hx
    obtain rfl | hx := List.mem_cons.mp hx
    · omega
    · exact ih hys (by omega) x hx

/-- Where two lists of entries give the same text and each entry of the one measures at most what
that of the other does, they measure the same one by one. -/
theorem eq_of_starred_eq (hm : ∀ as bs, m (as ++ bs) = m as + m bs) (kind : α → ParamKind)
    (hle : ∀ x ∈ xs, m (f x) ≤ m (g x))
    (heq : sep.intercalate (starred (xs.map fun x => (kind x, f x))) =
      sep.intercalate (starred (xs.map fun x => (kind x, g x)))) : ∀ x ∈ xs, m (f x) = m (g x) := by
  apply eq_of_total_eq hle
  have hmeasure := congrArg m heq
  rw [total_intercalate hm, total_intercalate hm, length_starred kind f g, total_starred,
    total_starred] at hmeasure
  omega

end Totals

section Defaults

variable {e : Entity} {proto : Prototype} {typed : List (Parameter × List Char)}
  {result type : List Char} {p : Parameter}

/-- The default of a parameter as it is written behind its type. -/
def defaultText (p : Parameter) : List Char :=
  match p.default? with
  | some d => " = ".toList ++ d.code
  | none => []

/-- A parameter with its type and its default. -/
def complete (p : Parameter) (type : List Char) : List Char :=
  annotated p.name type ++ defaultText p

/-- The text of a signature with all types and defaults. -/
def completeSignature (typed : List (Parameter × List Char)) (result : List Char) : List Char :=
  '(' :: ", ".toList.intercalate (starred (typed.map fun t => (t.1.kind, complete t.1 t.2))) ++
    ')' :: " -> ".toList ++ result

/-- The names of parameters and their types. -/
def namesOf (typed : List (Parameter × List Char)) : List (String × List Char) :=
  typed.map fun t => (t.1.name, t.2)

theorem mem_namesOf {t : Parameter × List Char} (h : t ∈ typed) :
    (t.1.name, t.2) ∈ namesOf typed :=
  List.mem_map_of_mem (f := fun t : Parameter × List Char => (t.1.name, t.2)) h

/-- A type behind a colon, unless it is empty. -/
def typeText (type : List Char) : List Char := if type = [] then [] else ':' :: ' ' :: type

theorem withDefault_eq (p : Parameter) (type? : Option (List Char)) :
    withDefault p type? = p.name.toList ++ typeText (type?.getD []) ++ defaultText p := by
  unfold withDefault typeText defaultText
  cases p.default? <;> cases type? <;> simp

theorem complete_eq (h : type ≠ []) (p : Parameter) :
    complete p type = p.name.toList ++ typeText type ++ defaultText p := by
  rw [complete, annotated, typeText, if_neg h]

/-- What was found has no commas, so those of a type are missing. -/
theorem count_withFound (params : List Char) (p : Parameter) (type : List Char) :
    (withFound (typesIn params) p).count ',' + type.count ',' = (complete p type).count ',' := by
  have hfound :
      (typeText ((((typesIn params).get? p.name).getD none).getD [])).count ',' = 0 := by
    cases htype : (typesIn params).get? p.name with
    | none => rfl
    | some type? =>
      cases type? with
      | none => rfl
      | some v =>
        have hv : v.count ',' = 0 := List.count_eq_zero.mpr (comma_not_mem_typesIn htype)
        by_cases hnil : v = [] <;> simp [typeText, hnil, hv]
  rw [withFound, withDefault_eq, complete, annotated]
  simp only [List.count_append, hfound, List.count_cons]
  simp
  omega

theorem cutResult_annotated (h : ¬arrow <:+: result) (list : List Char) :
    cutResult ('(' :: list ++ ')' :: " -> ".toList ++ result) =
      ('(' :: list ++ [')'], "-> ".toList ++ result) := by
  have hblank : ¬['-', '>'] <:+: ' ' :: result := by
    rw [List.infix_cons_iff]
    rintro (hstart | hmid)
    · simp at hstart
    · exact h hmid
  have hcut := cutAtLast?_pair (by decide) hblank ('(' :: list ++ [')', ' '])
  have hsig : '(' :: list ++ ')' :: " -> ".toList ++ result =
      '(' :: list ++ [')', ' '] ++ '-' :: '>' :: ' ' :: result := by simp
  have hstrip : strip ('(' :: list ++ [')', ' ']) = '(' :: list ++ [')'] :=
    strip_append_cons (by simp [isBlank]) rfl [' ']
  rw [cutResult, hsig, show arrow = ['-', '>'] from rfl, hcut]
  simp only [hstrip]
  rfl

theorem strip_annotatedList_ne_nil {typed : List (String × List Char)} (h : typed ≠ []) :
    strip (annotatedList typed) ≠ [] := by
  intro hnil
  obtain ⟨front, back, hlist, hfront, hback⟩ := exists_eq_strip (annotatedList typed)
  rw [hnil, List.nil_append] at hlist
  have hcolon : ':' ∈ annotatedList typed := by
    obtain ⟨t, ts, rfl⟩ := List.exists_cons_of_ne_nil h
    rw [annotatedList, List.map_cons, annotated, intercalate_append_cons]
    cases ts <;> simp [List.intercalate_cons_cons]
  rw [hlist] at hcolon
  rcases List.mem_append.mp hcolon with hmem | hmem
  · exact absurd (hfront _ hmem) (by decide)
  · exact absurd (hback _ hmem) (by decide)

/-- Reading a signature with types and writing it again with what was found. -/
theorem injectDefaults_annotated (h : ¬arrow <:+: result)
    (hparams : proto.params = typed.map Prod.fst)
    (hnames : AreNames ((namesOf typed).map Prod.fst)) :
    injectDefaults proto (annotatedSignature (namesOf typed) result) =
      '(' :: ", ".toList.intercalate (starred (typed.map fun t =>
        (t.1.kind, withFound (typesIn (annotatedList (namesOf typed))) t.1))) ++
        ')' :: " -> ".toList ++ result := by
  have hhead (list : List Char) : cutAt? ['('] ('(' :: list ++ [')']) = some ([], list ++ [')']) :=
    cutAt?_cons_self '(' _
  have hlast (list : List Char) :
      cutAtLast? [')'] ('(' :: list ++ [')']) = some ('(' :: list, []) :=
    cutAtLast?_append (by simp) ('(' :: list)
  have hinside (list : List Char) :
      (('(' :: list ++ [')']).take ('(' :: list).length).drop (0 + 1) = list := by simp
  have hmerged : mergeParams (typesIn (annotatedList (namesOf typed))) false proto.params =
      starred (typed.map fun t =>
        (t.1.kind, withFound (typesIn (annotatedList (namesOf typed))) t.1)) := by
    rw [hparams, mergeParams_eq, List.map_map]
    · rfl
    · intro p hp
      obtain ⟨t, ht, rfl⟩ := List.mem_map.mp hp
      exact typesIn_finds hnames (mem_namesOf ht)
  rw [annotatedSignature, injectDefaults, if_neg (by simp), cutResult_annotated h]
  simp only [hhead, hlast, hinside, List.length_nil, typesIn_strip, hmerged]
  cases typed with
  | nil => rfl
  | cons t ts =>
    have hlist : (strip (annotatedList (namesOf (t :: ts)))).isEmpty = false := by
      have hne : namesOf (t :: ts) ≠ [] := by simp [namesOf]
      simpa using strip_annotatedList_ne_nil hne
    have hne (entry : List Char) (entries : List (ParamKind × List Char)) :
        (starred ((t.1.kind, entry) :: entries)).isEmpty = false := by
      rw [starred_cons]
      split <;> rfl
    rw [hlist, List.map_cons, hne]
    simp [joinResult]

theorem withFound_eq (hnames : AreNames ((namesOf typed).map Prod.fst))
    (hcomma : ∀ t ∈ typed, ',' ∉ t.2) {t : Parameter × List Char} (ht : t ∈ typed) :
    withFound (typesIn (annotatedList (namesOf typed))) t.1 =
      t.1.name.toList ++ typeText (strip t.2) ++ defaultText t.1 := by
  have hcommas : ∀ n ∈ namesOf typed, ',' ∉ n.2 := by
    intro n hn
    obtain ⟨t, ht, rfl⟩ := List.mem_map.mp hn
    exact hcomma t ht
  rw [withFound, typesIn_get? hnames hcommas (mem_namesOf ht), withDefault_eq, Option.getD_some,
    Option.getD_some]

theorem length_typeText_le (type : List Char) :
    (typeText (strip type)).length ≤ type.length + 2 := by
  have hle := (strip_isInfix type).length_le
  rw [typeText]
  split
  · simp
  · simpa using hle

/-- A type keeps its length between colon and default only if it stays as it is. -/
theorem eq_of_length_typeText {type : List Char}
    (h : (typeText (strip type)).length = type.length + 2) : type ≠ [] ∧ strip type = type := by
  rw [typeText] at h
  split at h
  · simp at h
  · rename_i hne
    have heq : strip type = type := (strip_isInfix type).eq_of_length (by simpa using h)
    exact ⟨heq ▸ hne, heq⟩

/-- A signature is written again with all its types and its defaults if no type has a comma, is
empty or has white space around it, and otherwise it is not. -/
theorem injectDefaults_keeps_types_iff (hproto : innerPrototype e = .ok proto)
    (hparams : proto.params = typed.map Prod.fst)
    (hnames : AreNames (proto.params.map (·.name))) (hresult : ¬arrow <:+: result) :
    injectDefaultsOf e (annotatedSignature (namesOf typed) result) =
        completeSignature typed result ↔
      ∀ t ∈ typed, ',' ∉ t.2 ∧ t.2 ≠ [] ∧ strip t.2 = t.2 := by
  have hnamed : AreNames ((namesOf typed).map Prod.fst) := by
    rw [hparams, List.map_map] at hnames
    rw [namesOf, List.map_map]
    exact hnames
  simp only [injectDefaultsOf, hproto]
  rw [injectDefaults_annotated hresult hparams hnamed, completeSignature]
  constructor
  · intro heq
    have hjoined := List.append_cancel_right (List.append_cancel_right (List.cons.inj heq).2)
    have hcomma : ∀ t ∈ typed, ',' ∉ t.2 := by
      intro t ht
      have hle : ∀ t ∈ typed, (withFound (typesIn (annotatedList (namesOf typed))) t.1).count ',' ≤
          (complete t.1 t.2).count ',' := by
        intro t _
        exact Nat.le.intro (count_withFound _ t.1 t.2)
      have hsame := eq_of_starred_eq (fun _ _ => List.count_append) _ hle hjoined t ht
      have hcount := count_withFound (annotatedList (namesOf typed)) t.1 t.2
      exact List.count_eq_zero.mp (by omega)
    have hlength (t : Parameter × List Char) : (complete t.1 t.2).length =
        t.1.name.toList.length + (t.2.length + 2) + (defaultText t.1).length := by
      simp [complete, annotated]
      omega
    have hle : ∀ t ∈ typed, (withFound (typesIn (annotatedList (namesOf typed))) t.1).length ≤
        (complete t.1 t.2).length := by
      intro t ht
      have htype := length_typeText_le t.2
      rw [withFound_eq hnamed hcomma ht, hlength, List.length_append, List.length_append]
      omega
    intro t ht
    have hsame := eq_of_starred_eq (fun _ _ => List.length_append) _ hle hjoined t ht
    rw [withFound_eq hnamed hcomma ht, hlength, List.length_append, List.length_append] at hsame
    exact ⟨hcomma t ht, eq_of_length_typeText (by omega)⟩
  · intro h
    have hentries : ∀ t ∈ typed,
        (t.1.kind, withFound (typesIn (annotatedList (namesOf typed))) t.1) =
          (t.1.kind, complete t.1 t.2) := by
      intro t ht
      obtain ⟨-, hne, hstrip⟩ := h t ht
      rw [withFound_eq hnamed (fun t ht => (h t ht).1) ht, hstrip, complete_eq hne]
    rw [List.map_congr_left hentries]

/-- A column function that tells no more than the function it is made from. -/
def columnFunction (params : List Parameter) : Entity :=
  .udf {
    className := "CallableFunction", doc? := none, module? := none, isPolymorphic? := some false
    signature? := none, sig? := none, forms? := none, functions? := none, wrapped? := none
    hidden := false
    function? := some {
      name := "f", doc? := none, proto := ⟨params, none⟩, module? := none, binding := .plain
      hidden := false, source := .absent } }

/-- Parameters of several kinds, with defaults that have commas of their own. -/
def mixedParams : List (Parameter × List Char) := [
  (⟨"image", .positional, none, none⟩, "Image".toList),
  (⟨"size", .standard, none, some (.tuple [.int 2, .int 3])⟩, "Json | None".toList),
  (⟨"model", .keyword, none, some (.str "a, b")⟩, "String[(2)]".toList),
  (⟨"more", .restKeyword, none, none⟩, "Json".toList)]

theorem injectDefaults_keeps_types_mixed :
    let e := columnFunction (mixedParams.map Prod.fst)
    let proto : Prototype := ⟨mixedParams.map Prod.fst, none⟩
    innerPrototype e = .ok proto ∧ proto.params = mixedParams.map Prod.fst ∧
    AreNames (proto.params.map (·.name)) ∧ ¬arrow <:+: "Json".toList ∧
    (injectDefaultsOf e (annotatedSignature (namesOf mixedParams) "Json".toList) =
        completeSignature mixedParams "Json".toList ↔
      ∀ t ∈ mixedParams, ',' ∉ t.2 ∧ t.2 ≠ [] ∧ strip t.2 = t.2) ∧
    completeSignature mixedParams "Json".toList =
      ("(image: Image, size: Json | None = (2, 3), *, model: String[(2)] = 'a, b', " ++
        "more: Json) -> Json").toList := by
  intro e proto
  have hproto : innerPrototype e = .ok proto := rfl
  have hnames : AreNames (proto.params.map (·.name)) := by
    have hall : (proto.params.map (·.name)).all (fun n => isIdentifier n.toList) = true := by
      decide +kernel
    exact ⟨List.all_eq_true.mp hall, by simp [proto, mixedParams]⟩
  have hresult : ¬arrow <:+: "Json".toList := by
    intro h
    have hdash : '-' ∈ "Json".toList := h.subset (by simp [arrow])
    simp at hdash
  exact ⟨hproto, rfl, hnames, hresult, injectDefaults_keeps_types_iff hproto rfl hnames hresult,
    by decide +kernel⟩

/-- A type with a comma inside its brackets loses what comes behind it. -/
theorem injectDefaults_cuts_type :
    let typed : List (Parameter × List Char) :=
      [(⟨"x", .standard, none, none⟩, "Array[(768,), Float]".toList)]
    let e := columnFunction (typed.map Prod.fst)
    annotatedSignature (namesOf typed) "Json".toList =
      "(x: Array[(768,), Float]) -> Json".toList ∧
    completeSignature typed "Json".toList = "(x: Array[(768,), Float]) -> Json".toList ∧
    injectDefaultsOf e (annotatedSignature (namesOf typed) "Json".toList) =
      "(x: Array[(768) -> Json".toList := by
  decide +kernel

end Defaults

section Shown

variable {u : Udf} {typed : List (String × List Char)} {name : String}
  {result type params : List Char} {known : Known}

/-- What stands behind the type of a documented parameter. -/
def describedBy (p : DocParam) : String :=
  match present? p.description? with
  | some d => ": " ++ entryText d
  | none => ""

def entryHead (p : DocParam) : String := "- **\x60" ++ p.name ++ "\x60** "

/-- The entry of a documented parameter that is shown with a type and without a default. -/
def entryWithType (p : DocParam) (type : List Char) : String :=
  entryHead p ++ ("(\x60" ++ String.ofList type ++ "\x60)") ++ describedBy p ++ "\n"

/-- Every documented parameter that has a type in a list is shown with this type. -/
def ShowsTypes (e : Entity) (typed : List (String × List Char)) (doc : Docstring) : Prop :=
  doc.params ≠ [] → ∃ entry : DocParam → String,
    parameters e doc = "**Parameters:**\n\n" ++ String.join (doc.params.map entry) ++ "\n" ∧
    ∀ p ∈ doc.params, ∀ type, (p.name, type) ∈ typed → entry p = entryWithType p type

/-- The types in a parameter list, cut at every comma. -/
def typesOfList (params : List Char) : OrderedMap TypeNote :=
  .ofEntries (((splitChar ',' params).map strip).filterMap fun p =>
    (cutAt? [':'] p).map fun (name, type) =>
      (String.ofList (strip name), .text (String.ofList (strip type))))

theorem typesOfText_cut {front back : List Char} (h : ')' ∉ front) :
    typesOfText ('(' :: front ++ ')' :: back) = typesOfList front := by
  have hopen : cutAt? ['('] ('(' :: front ++ ')' :: back) = some ([], front ++ ')' :: back) :=
    cutAt?_cons_self '(' _
  have hclose : cutAt? [')'] ('(' :: front ++ ')' :: back) = some ('(' :: front, back) :=
    cutAt?_append (by simpa using h) back
  rw [typesOfText, hopen, hclose]
  simp [typesOfList]

/-- The list is taken to end at the first closing parenthesis. -/
theorem typesOfText_annotated (typed : List (String × List Char)) (result : List Char) :
    ∃ front, ')' ∉ front ∧ typesOfText (annotatedSignature typed result) = typesOfList front ∧
      (')' ∉ annotatedList typed → front = annotatedList typed) := by
  have hsig : annotatedSignature typed result =
      '(' :: annotatedList typed ++ ')' :: (" -> ".toList ++ result) := by simp [annotatedSignature]
  by_cases hmem : ')' ∈ annotatedList typed
  · obtain ⟨front, back, hlist, hfront⟩ := List.eq_append_cons_of_mem hmem
    refine ⟨front, hfront, ?_, fun h => absurd hmem h⟩
    have hcut : annotatedSignature typed result =
        '(' :: front ++ ')' :: (back ++ ')' :: (" -> ".toList ++ result)) := by
      simp [hsig, hlist]
    rw [hcut, typesOfText_cut hfront]
  · exact ⟨_, hmem, by rw [hsig, typesOfText_cut hmem], fun _ => rfl⟩

/-- What is found in a list is a part of it without commas. -/
theorem typesOfList_found {note : TypeNote} (h : (typesOfList params).get? name = some note) :
    ∃ v, note = .text (String.ofList v) ∧ ',' ∉ v ∧ ∀ c ∈ v, c ∈ params := by
  obtain ⟨p, hp, hread⟩ :=
    List.mem_filterMap.mp (OrderedMap.mem_ofEntries (OrderedMap.mem_of_get? h))
  obtain ⟨piece, hpiece, rfl⟩ := List.mem_map.mp hp
  obtain ⟨⟨before, after⟩, hcut, heq⟩ := Option.map_eq_some_iff.mp hread
  obtain ⟨-, rfl⟩ := Prod.mk.inj heq
  have hsub : ∀ c ∈ strip after, c ∈ piece := by
    intro c hc
    apply (strip_isInfix piece).subset
    rw [cutAt?_eq_some hcut]
    simp [(strip_isInfix after).subset hc]
  exact ⟨strip after, rfl, fun hc => not_mem_of_mem_splitChar hpiece (hsub _ hc),
    fun c hc => mem_of_mem_splitChar hpiece (hsub c hc)⟩

theorem typesOfList_get? (h : AreNames (typed.map Prod.fst)) (hcomma : ∀ t ∈ typed, ',' ∉ t.2)
    (hmem : (name, type) ∈ typed) : (typesOfList (annotatedList typed)).get? name =
      some (.text (String.ofList (strip type))) := by
  have hread : ∀ t ∈ typed, ((fun p => (cutAt? [':'] p).map fun (name, type) =>
      (String.ofList (strip name), TypeNote.text (String.ofList (strip type)))) ∘
      fun t : String × List Char => strip (annotated t.1 t.2)) t =
        (some ∘ fun t => (t.1, .text (String.ofList (strip t.2)))) t := by
    intro t ht
    have hname := h.isIdentifier ht
    rw [Function.comp_apply, annotated, strip_entry hname, cutAt?_entry hname,
      Option.map_some]
    simp only [strip_stripRight, strip_cons (c := ' ') rfl, ofList_strip_name hname,
      Function.comp_apply]
  rw [typesOfList, map_strip_entries h hcomma (List.ne_nil_of_mem hmem), List.filterMap_map,
    List.filterMap_congr hread, List.filterMap_eq_map]
  apply OrderedMap.get?_ofEntries_of_nodup
  · rw [List.map_map]
    exact h.nodup
  · exact List.mem_map_of_mem
      (f := fun t : String × List Char => (t.1, TypeNote.text (String.ofList (strip t.2)))) hmem

theorem mem_annotatedList {c : Char} (h : c ∈ annotatedList typed) :
    c ∈ ", ".toList ∨ ∃ t ∈ typed, c ∈ annotated t.1 t.2 := by
  induction typed with
  | nil => simp [annotatedList] at h
  | cons t ts ih =>
    cases ts with
    | nil => exact .inr ⟨t, by simp, by simpa [annotatedList] using h⟩
    | cons u us =>
      rw [annotatedList, List.map_cons, List.map_cons, List.intercalate_cons_cons, List.mem_append,
        List.mem_append] at h
      rcases h with (h | h) | h
      · exact .inr ⟨t, by simp, h⟩
      · exact .inl h
      · obtain hsep | ⟨v, hv, hc⟩ := ih h
        · exact .inl hsep
        · exact .inr ⟨v, List.mem_cons_of_mem _ hv, hc⟩

theorem close_not_mem_annotatedList (h : AreNames (typed.map Prod.fst))
    (hclose : ∀ t ∈ typed, ')' ∉ t.2) : ')' ∉ annotatedList typed := by
  intro hmem
  obtain hsep | ⟨t, ht, hc⟩ := mem_annotatedList hmem
  · simp at hsep
  · have hname : ')' ∉ t.1.toList := not_mem_of_isIdentifier (by decide) (h.isIdentifier ht)
    simp [annotated, hname, hclose t ht] at hc

theorem readClassForm_eq_some {cs : List Char} {hit : Hit} (h : readClassForm cs = some hit) :
    ∃ name rest, cs = classOpening ++ (name ++ (classClosing ++ rest)) ∧
      hit = ⟨classOpening.length + name.length + classClosing.length, name⟩ := by
  unfold readClassForm at h
  cases hopen : afterStart? classOpening cs with
  | none => simp [hopen] at h
  | some rest =>
    simp only [hopen] at h
    split at h
    · rename_i hclose
      rw [Bool.and_eq_true, drop_takeWhile] at hclose
      obtain ⟨more, hmore⟩ := Option.isSome_iff_exists.mp hclose.2
      refine ⟨_, more, ?_, (Option.some.inj h).symm⟩
      rw [← afterStart?_eq_some.mp hmore, List.takeWhile_append_dropWhile,
        afterStart?_eq_some.mp hopen]
    · cases h

theorem mem_of_mem_plainClasses {c : Char} {cs : List Char} (h : c ∈ plainClasses cs) : c ∈ cs := by
  refine Decidable.byContradiction fun hc => not_mem_substituteFrom ?_ hc 0 none h
  intro _ ahead hit hhit hahead
  obtain ⟨name, rest, rfl, rfl⟩ := readClassForm_eq_some hhit
  exact fun hname => hahead (by simp [hname])

theorem length_plainClasses_le (cs : List Char) : (plainClasses cs).length ≤ cs.length := by
  refine length_substituteFrom_le ?_ 0 (Nat.zero_le _) none
  intro _ ahead hit hhit
  obtain ⟨name, rest, rfl, rfl⟩ := readClassForm_eq_some hhit
  simp only [List.length_append]
  omega

theorem knownOf_annotated (hform : u.isPolymorphic? ≠ some true)
    (hsig : u.signature? = some (String.ofList (annotatedSignature typed result))) :
    knownOf (.udf u) = ⟨typesOfText (annotatedSignature typed result), []⟩ := by
  have hpresent : present? u.signature? =
      some (String.ofList (annotatedSignature typed result)) := by
    rw [hsig, present?, if_neg]
    simp [annotatedSignature]
  unfold knownOf
  simp only [hpresent, String.toList_ofList]
  split
  · rename_i hpoly _
    exact absurd hpoly hform
  · rfl

theorem paramEntry_eq (types : OrderedMap TypeNote) (p : DocParam) :
    paramEntry ⟨types, []⟩ p =
      match shownType? ⟨types, []⟩ p with
      | some type => entryWithType p type.toList
      | none => entryHead p ++ describedBy p ++ "\n" := by
  have hdefault : shownDefault? ⟨types, []⟩ p = none := rfl
  rw [paramEntry, hdefault]
  cases shownType? ⟨types, []⟩ p <;> cases hdesc : present? p.description? <;>
    simp [entryWithType, entryHead, describedBy, hdesc, String.append_assoc]

/-- An entry tells the type that it shows. -/
theorem shownType?_of_paramEntry {types : OrderedMap TypeNote} {p : DocParam}
    (h : paramEntry ⟨types, []⟩ p = entryWithType p type) :
    shownType? ⟨types, []⟩ p = some (String.ofList type) := by
  rw [paramEntry_eq, entryWithType] at h
  cases hshown : shownType? ⟨types, []⟩ p with
  | none =>
    have hlength := congrArg String.length h
    simp only [hshown, String.length_append] at hlength
    simp at hlength
  | some shown =>
    simp only [hshown, entryWithType, String.append_left_inj, String.append_right_inj,
      String.ofList_toList] at h
    rw [h]

theorem showsTypes_iff_forall {types : OrderedMap TypeNote}
    (hknown : knownOf (.udf u) = ⟨types, []⟩) :
    (∀ doc, ShowsTypes (.udf u) typed doc) ↔ ∀ t ∈ typed, ∀ type? description?,
      shownType? ⟨types, []⟩ ⟨t.1, type?, description?⟩ = some (String.ofList t.2) := by
  constructor
  · intro h t ht type? description?
    obtain ⟨entry, heq, hentry⟩ :=
      h { Docstring.empty with params := [⟨t.1, type?, description?⟩] } (by simp)
    have hsame : paramEntry ⟨types, []⟩ ⟨t.1, type?, description?⟩ =
        entry ⟨t.1, type?, description?⟩ := by
      simpa [parameters, hknown] using heq
    exact shownType?_of_paramEntry (hsame.trans (hentry _ (by simp) t.2 ht))
  · intro h doc hdoc
    refine ⟨paramEntry ⟨types, []⟩, by simp [parameters, hdoc, hknown], ?_⟩
    intro p _ type ht
    rw [paramEntry_eq, h _ ht p.type? p.description?]
    simp only [String.toList_ofList]

theorem plainClassesText_ofList (cs : List Char) :
    plainClassesText (String.ofList cs) = String.ofList (plainClasses cs) := by
  rw [plainClassesText, onChars, String.toList_ofList]

theorem shownType?_found {types : OrderedMap TypeNote} {p : DocParam} {v : List Char}
    (h : types.get? p.name = some (.text (String.ofList v))) :
    shownType? ⟨types, []⟩ p = some (String.ofList type) ↔ v ≠ [] ∧ plainClasses v = type := by
  by_cases hv : v = []
  · simp [shownType?, h, TypeNote.isPresent, hv]
  · simp [shownType?, h, TypeNote.isPresent, TypeNote.shown, plainClassesText_ofList,
      String.ofList_inj, hv]

/-- A type that does not depend on the documentation was found in the signature. -/
theorem get?_ne_none_of_shown {types : OrderedMap TypeNote}
    (h : ∀ type? description?,
      shownType? ⟨types, []⟩ ⟨name, type?, description?⟩ = some (String.ofList type)) :
    types.get? name ≠ none := by
  intro hnone
  have hdoc (cs : List Char) (hne : cs ≠ []) (hcs : plainClasses cs = cs) : cs = type := by
    have hshown := h (some (String.ofList cs)) none
    simp only [shownType?, hnone, Option.getD_none] at hshown
    simpa [present?, TypeNote.isPresent, TypeNote.shown, plainClassesText_ofList, hne, hcs,
      String.ofList_inj] using hshown
  have ha : ['a'] = type := hdoc ['a'] (by simp) rfl
  rw [← hdoc ['b'] (by simp) rfl] at ha
  simp at ha

/-- Every documented parameter is shown with its type in the signature, whatever the documentation
says, if no type has a comma or a closing parenthesis, is empty, has white space around it or names
a class by its full form, and otherwise it is not. -/
theorem parameters_show_types_iff (hform : u.isPolymorphic? ≠ some true)
    (hsig : u.signature? = some (String.ofList (annotatedSignature typed result)))
    (hnames : AreNames (typed.map Prod.fst)) :
    (∀ doc, ShowsTypes (.udf u) typed doc) ↔
      ∀ t ∈ typed, ',' ∉ t.2 ∧ ')' ∉ t.2 ∧ t.2 ≠ [] ∧ strip t.2 = t.2 ∧
        plainClasses t.2 = t.2 := by
  obtain ⟨front, hfront, htypes, hlist⟩ := typesOfText_annotated typed result
  have hknown := knownOf_annotated hform hsig
  rw [htypes] at hknown
  rw [showsTypes_iff_forall hknown]
  constructor
  · intro h
    have hplain : ∀ t ∈ typed, ',' ∉ t.2 ∧ ')' ∉ t.2 := by
      intro t ht
      obtain ⟨note, hnote⟩ := Option.ne_none_iff_exists'.mp (get?_ne_none_of_shown (h t ht))
      obtain ⟨v, rfl, hcomma, hsub⟩ := typesOfList_found hnote
      obtain ⟨-, hshown⟩ := (shownType?_found hnote).mp (h t ht none none)
      rw [← hshown]
      exact ⟨fun hc => hcomma (mem_of_mem_plainClasses hc),
        fun hc => hfront (hsub _ (mem_of_mem_plainClasses hc))⟩
    have hwhole := hlist (close_not_mem_annotatedList hnames fun t ht => (hplain t ht).2)
    intro t ht
    have hget := typesOfList_get? hnames (fun t ht => (hplain t ht).1) ht
    rw [← hwhole] at hget
    obtain ⟨hne, hshown⟩ := (shownType?_found hget).mp (h t ht none none)
    -- Neither step makes a text longer, so both leave it as it is.
    have hstrip : strip t.2 = t.2 := by
      have hle := length_plainClasses_le (strip t.2)
      rw [hshown] at hle
      exact (strip_isInfix t.2).eq_of_length (Nat.le_antisymm (strip_isInfix t.2).length_le hle)
    rw [hstrip] at hne hshown
    exact ⟨(hplain t ht).1, (hplain t ht).2, hne, hstrip, hshown⟩
  · intro h t ht type? description?
    have hwhole := hlist (close_not_mem_annotatedList hnames fun t ht => (h t ht).2.1)
    have hget := typesOfList_get? hnames (fun t ht => (h t ht).1) ht
    obtain ⟨-, -, hne, hstrip, hclasses⟩ := h t ht
    rw [← hwhole, hstrip] at hget
    exact (shownType?_found hget).mpr ⟨hne, hclasses⟩

/-- A column function of one form that tells only its signature. -/
def signedFunction (sig : List Char) : Udf := {
  className := "CallableFunction", doc? := none, module? := none, isPolymorphic? := some false
  signature? := some (String.ofList sig), sig? := none, forms? := none, function? := none
  functions? := none, wrapped? := none, hidden := false }

theorem parameters_show_types_plain :
    let typed := [("image", "Image".toList), ("size", "Json | None".toList)]
    let u := signedFunction (annotatedSignature typed "Array[(768,), Float]".toList)
    u.isPolymorphic? ≠ some true ∧
    u.signature? = some (String.ofList
      (annotatedSignature typed "Array[(768,), Float]".toList)) ∧
    AreNames (typed.map Prod.fst) ∧
    ((∀ doc, ShowsTypes (.udf u) typed doc) ↔
      ∀ t ∈ typed, ',' ∉ t.2 ∧ ')' ∉ t.2 ∧ t.2 ≠ [] ∧ strip t.2 = t.2 ∧
        plainClasses t.2 = t.2) := by
  intro typed u
  have hform : u.isPolymorphic? ≠ some true := by decide
  have hsig : u.signature? = some (String.ofList
      (annotatedSignature typed "Array[(768,), Float]".toList)) := rfl
  have hnames : AreNames (typed.map Prod.fst) := by
    have hall : (typed.map Prod.fst).all (fun n => isIdentifier n.toList) = true := by
      decide +kernel
    exact ⟨List.all_eq_true.mp hall, by simp [typed]⟩
  exact ⟨hform, hsig, hnames, parameters_show_types_iff hform hsig hnames⟩

/-- A type with a comma loses what comes behind it, and one with a closing parenthesis takes the
types of all later parameters with it. -/
theorem parameters_cut_types :
    let typed := [("x", "Array[(768,), Float]".toList), ("y", "Int".toList)]
    let u := signedFunction (annotatedSignature typed "Json".toList)
    let doc : Docstring := { Docstring.empty with params := [⟨"x", none, none⟩, ⟨"y", none, none⟩] }
    annotatedSignature typed "Json".toList =
      "(x: Array[(768,), Float], y: Int) -> Json".toList ∧
    parameters (.udf u) doc = "**Parameters:**\n\n" ++ entryWithType ⟨"x", none, none⟩
      "Array[(768".toList ++ entryWithType ⟨"y", none, none⟩ "Any".toList ++ "\n" := by
  decide +kernel

end Shown

end DocSite.Section
