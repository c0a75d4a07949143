import DocSite.Disk
import DocSite.Proofs.Fields

namespace DocSite.Disk

variable {d d' : Disk} {place p q source target : List String} {text name : String} {node : Node}

/-- The text of the file at a place, if a file is there. -/
def fileAt (d : Disk) (place : List String) : Option String :=
  match d.find? place with
  | some (.file text) => some text
  | _ => none

theorem fileAt_eq_some : d.fileAt place = some text ↔ d.find? place = some (.file text) := by
  unfold fileAt
  split <;> simp_all

theorem lookup_replaceNode (place q : List String) (node : Node)
    (nodes : List (List String × Node)) :
    lookup q (replaceNode place node nodes) =
      if place = q then some node else lookup q nodes := by
  induction nodes with
  | nil => by_cases h : place = q <;> simp [replaceNode, lookup, h]
  | cons entry rest ih =>
    obtain ⟨p, n⟩ := entry
    by_cases hp : p = place
    · subst hp
      by_cases hq : p = q <;> simp [replaceNode, lookup, hq]
    · by_cases hq : p = q
      · subst hq
        simp [replaceNode, lookup, hp, Ne.symm hp]
      · simp only [replaceNode, hp, if_false, lookup, hq, ih]

theorem find?_put (hq : q ≠ []) (place : List String) (node : Node) :
    (d.put place node).find? q = if place = q then some node else d.find? q := by
  have hempty : q.isEmpty = false := by simpa using hq
  simp only [find?, hempty, put, lookup_replaceNode, Bool.false_eq_true, if_false]

@[simp] theorem fileAt_nil : d.fileAt [] = none := rfl

theorem fileAt_put (hq : q ≠ []) (place : List String) (text : String) :
    (d.put place (.file text)).fileAt q = if place = q then some text else d.fileAt q := by
  by_cases h : place = q <;> simp [fileAt, find?_put hq, h]

/-- A file that is put anywhere but at the top changes no other. -/
theorem fileAt_put_file (hplace : place ≠ []) (text : String) (q : List String) :
    (d.put place (.file text)).fileAt q = if q = place then some text else d.fileAt q := by
  by_cases hq : q = []
  · rw [hq, fileAt_nil, fileAt_nil, if_neg hplace.symm]
  · simp only [fileAt_put hq, eq_comm]

/-- A directory where nothing was hides no file. -/
theorem fileAt_put_dir (hfree : d.exists? place = false) (q : List String) :
    (d.put place .dir).fileAt q = d.fileAt q := by
  by_cases hq : q = []
  · rw [hq, fileAt_nil, fileAt_nil]
  · by_cases h : place = q
    · subst h
      have hnone : d.find? place = none := by simpa [exists?] using hfree
      simp [fileAt, find?_put hq, hnone]
    · simp [fileAt, find?_put hq, h]

@[simp] theorem fileAt_fill (d : Disk) (place q : List String) :
    (d.fill place).fileAt q = d.fileAt q := by
  unfold fill
  induction upTo place generalizing d with
  | nil => rfl
  | cons p ps ih =>
    rw [List.foldl_cons, ih]
    by_cases h : d.exists? p = true
    · rw [if_pos h]
    · rw [if_neg h]
      exact fileAt_put_dir (by simpa using h) q

theorem fileAt_addFile (hq : q ≠ []) (place : List String) (text : String) :
    (d.addFile place text).fileAt q = if place = q then some text else d.fileAt q := by
  rw [addFile, fileAt_put hq, fileAt_fill]

theorem isSome_fileAt_addFile (h : (d.fileAt q).isSome) (place : List String) (text : String) :
    ((d.addFile place text).fileAt q).isSome := by
  by_cases hq : q = []
  · subst hq
    cases h
  · rw [fileAt_addFile hq]
    split
    · rfl
    · exact h

theorem lookup_filter_isPrefixOf (place q : List String) (nodes : List (List String × Node)) :
    lookup q (nodes.filter fun (p, _) => !place.isPrefixOf p) =
      if place.isPrefixOf q then none else lookup q nodes := by
  induction nodes with
  | nil => simp [lookup]
  | cons entry rest ih =>
    obtain ⟨p, n⟩ := entry
    by_cases hp : place.isPrefixOf p = true
    · by_cases hq : p = q
      · subst hq
        simpa [hp] using ih
      · simpa [List.filter_cons, hp, lookup, hq] using ih
    · by_cases hq : p = q
      · subst hq
        simp [hp, lookup]
      · simpa [List.filter_cons, hp, lookup, hq] using ih

/-- Nothing but what lies at a place or below it goes with the place. -/
theorem fileAt_remove (h : ¬ place <+: q) : (d.remove place).fileAt q = d.fileAt q := by
  have hprefix : place.isPrefixOf q = false := by
    rw [← Bool.not_eq_true, List.isPrefixOf_iff_prefix]
    exact h
  by_cases hq : q = []
  · rw [hq, fileAt_nil, fileAt_nil]
  · have hempty : q.isEmpty = false := by simpa using hq
    simp only [fileAt, find?, hempty, remove, lookup_filter_isPrefixOf, hprefix,
      Bool.false_eq_true, if_false]

theorem mem_of_lookup {nodes : List (List String × Node)} (h : lookup q nodes = some node) :
    (q, node) ∈ nodes := by
  induction nodes with
  | nil => cases h
  | cons entry rest ih =>
    obtain ⟨p, n⟩ := entry
    by_cases hp : p = q
    · simp only [lookup, hp, if_true, Option.some.injEq] at h
      simp [hp, h]
    · simp only [lookup, hp, if_false] at h
      exact List.mem_cons_of_mem _ (ih h)

theorem mem_below (hq : q ≠ []) (h : d.fileAt (place ++ q) = some text) :
    (q, .file text) ∈ d.below place := by
  have hne : (place ++ q).isEmpty = false := by simp [hq]
  have hfind := fileAt_eq_some.mp h
  simp only [find?, hne, Bool.false_eq_true, if_false] at hfind
  have hlen : 0 < q.length := List.length_pos_iff.mpr hq
  refine List.mem_filterMap.mpr ⟨_, mem_of_lookup hfind, ?_⟩
  simp [hlen]

/-- One thing that lies below a place, laid below another. -/
def layOver (target : List String) (d : Disk) : List String × Node → Disk
  | (p, .dir) => d.fill (target ++ p)
  | (p, .file text) => d.addFile (target ++ p) text

theorem copy_dir (h : d.find? source = some .dir) (target : List String) :
    d.copy source target = (d.below source).foldl (layOver target) (d.fill target) := by
  simp only [copy, h]
  congr 1
  funext d entry
  obtain ⟨p, n⟩ := entry
  cases n <;> rfl

theorem isSome_fileAt_layOver (h : (d.fileAt q).isSome) (target : List String)
    (entry : List String × Node) : ((layOver target d entry).fileAt q).isSome := by
  obtain ⟨p, n⟩ := entry
  cases n with
  | dir => simpa [layOver] using h
  | file text => exact isSome_fileAt_addFile h _ _

theorem isSome_fileAt_foldl (h : (d.fileAt q).isSome) (target : List String)
    (entries : List (List String × Node)) :
    ((entries.foldl (layOver target) d).fileAt q).isSome := by
  induction entries generalizing d with
  | nil => exact h
  | cons entry rest ih => exact ih (isSome_fileAt_layOver h target entry)

/-- A copy takes no file away. -/
theorem isSome_fileAt_copy (h : (d.fileAt q).isSome) (source target : List String) :
    ((d.copy source target).fileAt q).isSome := by
  match hs : d.find? source with
  | none => simpa [copy, hs] using h
  | some (.file text) =>
    simp only [copy, hs]
    exact isSome_fileAt_addFile h _ _
  | some .dir =>
    rw [copy_dir hs]
    exact isSome_fileAt_foldl (by simpa using h) _ _

/-- Every file below a directory has its copy. -/
theorem isSome_fileAt_copied (hdir : d.find? source = some .dir) (hq : q ≠ [])
    (h : (d.fileAt (source ++ q)).isSome) :
    ((d.copy source target).fileAt (target ++ q)).isSome := by
  obtain ⟨text, htext⟩ := Option.isSome_iff_exists.mp h
  obtain ⟨before, after, hbelow⟩ := List.append_of_mem (mem_below hq htext)
  rw [copy_dir hdir, hbelow, List.foldl_append, List.foldl_cons]
  apply isSome_fileAt_foldl
  rw [layOver, fileAt_addFile (by simp [hq]), if_pos rfl]
  rfl

theorem isEncodable_of_checkPlace {u : Unit} (h : checkPlace place = .ok u) :
    ∀ name ∈ place, isEncodable name = true := by
  unfold checkPlace at h
  simp only at h
  split at h
  · obtain ⟨_, herror, -⟩ := Attempt.bind_eq_ok.mp h
    cases herror
  · rename_i hall
    exact List.all_eq_true.mp (by simpa using hall)

theorem write_eq_ok_iff : d.write place text = .ok d' ↔
    checkPlace place = .ok () ∧ d.isDir place = false ∧ d.barred place = false ∧
      d.isDir place.dropLast = true ∧ d' = d.put place (.file text) := by
  unfold write
  rw [Attempt.check_eq_ok]
  cases d.isDir place <;> cases d.barred place <;> cases d.isDir place.dropLast <;>
    simp [eq_comm]

theorem makeDir_eq_ok_iff : d.makeDir place = .ok d' ↔
    checkPlace place = .ok () ∧ d.barred place = false ∧ d.fileAt place = none ∧
      d' = d.fill place := by
  unfold makeDir fileAt
  rw [Attempt.check_eq_ok]
  cases d.barred place with
  | true => simp
  | false =>
    cases d.find? place with
    | none => simp [eq_comm]
    | some node => cases node <;> simp [eq_comm]

theorem write_eq_ok (h : d.write place text = .ok d') : d' = d.put place (.file text) :=
  (write_eq_ok_iff.mp h).2.2.2.2

theorem makeDir_eq_ok (h : d.makeDir place = .ok d') : d' = d.fill place :=
  (makeDir_eq_ok_iff.mp h).2.2.2

theorem find?_foldl_dir (places : List (List String)) (hplaces : [] ∉ places) (q : List String) :
    (places.foldl (fun d p => if d.exists? p then d else d.put p .dir) d).find? q =
      (d.find? q).or (if q ∈ places then some .dir else none) := by
  induction places generalizing d with
  | nil => simp
  | cons p ps ih =>
    obtain ⟨hp, hps⟩ : [] ≠ p ∧ [] ∉ ps := by simpa using hplaces
    rw [List.foldl_cons, ih hps]
    by_cases hq : q = []
    · subst hq
      simp [find?]
    · by_cases hex : d.exists? p = true
      · by_cases hqp : q = p
        · subst hqp
          obtain ⟨node, hnode⟩ := Option.isSome_iff_exists.mp hex
          simp [hex, hnode]
        · simp [hex, hqp]
      · have hnone : d.find? p = none := by simpa [exists?] using hex
        by_cases hqp : q = p
        · subst hqp
          simp [hex, find?_put hq, hnone]
        · simp [hex, find?_put hq, hqp, Ne.symm hqp]

theorem nil_not_mem_upTo (place : List String) : [] ∉ upTo place := by
  simp only [upTo, List.mem_map, List.mem_range, not_exists, not_and]
  intro i hi hnil
  rcases List.take_eq_nil_iff.mp hnil with hzero | hempty
  · omega
  · simp [hempty] at hi

/-- The places on the way are taken by directories where they were free. -/
theorem find?_fill (d : Disk) (place q : List String) :
    (d.fill place).find? q = (d.find? q).or (if q ∈ upTo place then some .dir else none) :=
  find?_foldl_dir (upTo place) (nil_not_mem_upTo place) q

theorem read_eq_ok (h : d.read place = .ok text) : d.fileAt place = some text := by
  obtain ⟨-, -, h⟩ := Attempt.bind_eq_ok.mp h
  rw [fileAt_eq_some]
  split at h
  · rename_i hfind
    rw [hfind, Except.ok.inj h]
  · cases h
  · split at h <;> cases h

theorem mem_upTo_iff : p ∈ upTo place ↔ p ≠ [] ∧ p <+: place := by
  constructor
  · intro h
    refine ⟨fun hnil => nil_not_mem_upTo place (hnil ▸ h), ?_⟩
    obtain ⟨i, -, rfl⟩ := List.mem_map.mp h
    exact List.take_prefix _ _
  · rintro ⟨hne, hpre⟩
    have hpos := List.length_pos_iff.mpr hne
    have hle := hpre.length_le
    refine List.mem_map.mpr ⟨p.length - 1, List.mem_range.mpr (by omega), ?_⟩
    rw [Nat.sub_add_cancel hpos]
    exact (List.prefix_iff_eq_take.mp hpre).symm

theorem barred_eq_false_iff : d.barred place = false ↔
    ∀ p, p <+: place.dropLast → d.fileAt p = none := by
  rw [barred, List.any_eq_false]
  constructor
  · intro h p hp
    by_cases hne : p = []
    · rw [hne, fileAt_nil]
    · have hfile := h p (mem_upTo_iff.mpr ⟨hne, hp⟩)
      unfold fileAt
      split
      · rename_i hfind
        simp [hfind] at hfile
      · rfl
  · intro h p hp
    have hfile := h p (mem_upTo_iff.mp hp).2
    unfold fileAt at hfile
    split
    · rename_i hfind
      simp [hfind] at hfile
    · simp

theorem checkNames_eq_ok_iff : checkNames place = .ok () ↔ ∀ s ∈ place, isLong s = false := by
  unfold checkNames
  by_cases h : place.any isLong = true
  · rw [if_pos h]
    simpa using h
  · rw [if_neg h]
    simpa using h

theorem checkPlace_eq_ok_iff : checkPlace place = .ok () ↔
    ∀ s ∈ place, isEncodable s = true ∧ '\x00' ∉ s.toList ∧ isLong s = false := by
  have hsplit : (∀ s ∈ place, isEncodable s = true ∧ '\x00' ∉ s.toList ∧ isLong s = false) ↔
      place.all isEncodable = true ∧ ¬place.any (·.toList.contains '\x00') = true ∧
        checkNames place = .ok () := by
    rw [checkNames_eq_ok_iff]
    simp only [List.all_eq_true, List.any_eq_true, List.contains_iff_mem, not_exists, not_and]
    exact ⟨fun h => ⟨fun s hs => (h s hs).1, fun s hs => (h s hs).2.1, fun s hs => (h s hs).2.2⟩,
      fun h s hs => ⟨h.1 s hs, h.2.1 s hs, h.2.2 s hs⟩⟩
  rw [hsplit]
  unfold checkPlace
  by_cases hcode : place.all isEncodable = true
  · by_cases hnull : place.any (·.toList.contains '\x00') = true
    · simp only [hcode, hnull]
      exact iff_of_false (fun h => by cases h) (by simp)
    · simp only [hcode, hnull]
      simp
  · simp only [hcode]
    exact iff_of_false (fun h => by cases h) (by simp)

theorem find?_remove (hq : q ≠ []) (place : List String) :
    (d.remove place).find? q = if place <+: q then none else d.find? q := by
  have hempty : q.isEmpty = false := by simpa using hq
  simp only [find?, hempty, remove, lookup_filter_isPrefixOf, List.isPrefixOf_iff_prefix,
    Bool.false_eq_true, if_false]

theorem fileAt_eq_none_of_isDir (h : d.isDir place = true) : d.fileAt place = none := by
  have hfind : d.find? place = some .dir := by simpa [isDir] using h
  simp [fileAt, hfind]

/-- Every place above one that is taken is a directory, and what is taken has a name that a place
can have. -/
structure IsSound (d : Disk) : Prop where
  above : ∀ p q, q ≠ [] → d.exists? (p ++ q) = true → d.isDir p = true
  named : ∀ p, d.exists? p = true → checkPlace p = .ok ()

theorem isSound_of_nodes (h : ∀ entry ∈ d.nodes, checkPlace entry.1 = .ok () ∧
    ∀ p ∈ upTo entry.1.dropLast, d.isDir p = true) : d.IsSound := by
  have hmem {p : List String} (hp : p ≠ []) (hexists : d.exists? p = true) :
      ∃ node, (p, node) ∈ d.nodes := by
    obtain ⟨node, hnode⟩ := Option.isSome_iff_exists.mp hexists
    have hempty : p.isEmpty = false := by simpa using hp
    rw [find?, hempty] at hnode
    exact ⟨node, mem_of_lookup hnode⟩
  constructor
  · intro p q hq hexists
    by_cases hp : p = []
    · rw [hp]
      rfl
    · obtain ⟨node, hnode⟩ := hmem (by simp [hq]) hexists
      apply (h _ hnode).2 p
      rw [mem_upTo_iff, List.dropLast_append_of_ne_nil hq]
      exact ⟨hp, List.prefix_append _ _⟩
  · intro p hexists
    by_cases hp : p = []
    · rw [hp]
      rfl
    · obtain ⟨node, hnode⟩ := hmem hp hexists
      exact (h _ hnode).1

theorem IsSound.makeDir_eq (h : d.IsSound) (hdir : d.isDir place = true) :
    d.makeDir place = .ok (d.fill place) := by
  have hexists : d.exists? place = true := by
    have hfind : d.find? place = some .dir := by simpa [isDir] using hdir
    simp [exists?, hfind]
  refine makeDir_eq_ok_iff.mpr ⟨h.named place hexists, ?_, fileAt_eq_none_of_isDir hdir, rfl⟩
  rw [barred_eq_false_iff]
  intro p hp
  obtain rfl | ⟨above, last, rfl⟩ := List.eq_nil_or_concat place
  · rw [List.prefix_nil.mp hp, fileAt_nil]
  · rw [List.concat_eq_append, List.dropLast_concat] at hp
    obtain ⟨q, rfl⟩ := hp
    apply fileAt_eq_none_of_isDir
    apply h.above p (q ++ [last]) (by simp)
    simpa using hexists

theorem IsSound.named_of_fileAt (h : d.IsSound) (hfile : d.fileAt place = some text) :
    checkPlace place = .ok () :=
  h.named place (by simp [exists?, fileAt_eq_some.mp hfile])

theorem IsSound.read_eq (h : d.IsSound) (hfile : d.fileAt place = some text) :
    d.read place = .ok text := by
  rw [read, h.named_of_fileAt hfile, fileAt_eq_some.mp hfile]
  rfl

/-- A file that is there can be written anew. -/
theorem IsSound.write_eq (h : d.IsSound) (hfile : d.fileAt place = some text) (new : String) :
    d.write place new = .ok (d.put place (.file new)) := by
  have hfind := fileAt_eq_some.mp hfile
  obtain rfl | ⟨above, last, rfl⟩ := List.eq_nil_or_concat place
  · cases hfile
  rw [List.concat_eq_append] at hfile hfind ⊢
  have hexists : d.exists? (above ++ [last]) = true := by simp [exists?, hfind]
  refine write_eq_ok_iff.mpr ⟨h.named_of_fileAt hfile, by simp [isDir, hfind], ?_, ?_, rfl⟩
  · rw [barred_eq_false_iff, List.dropLast_concat]
    rintro p ⟨q, rfl⟩
    apply fileAt_eq_none_of_isDir
    apply h.above p (q ++ [last]) (by simp)
    rwa [List.append_assoc] at hexists
  · rw [List.dropLast_concat]
    exact h.above above [last] (by simp) hexists

/-- Nothing lies below a place that is free. -/
theorem IsSound.exists?_below (h : d.IsSound) (hfree : d.find? place = none) (hq : q ≠ []) :
    d.exists? (place ++ q) = false := by
  cases hexists : d.exists? (place ++ q) with
  | false => rfl
  | true =>
    have hdir := h.above place q hq hexists
    simp [isDir, hfree] at hdir

theorem isDir_of_makeDir (h : d.makeDir place = .ok d') : d'.isDir place = true := by
  obtain ⟨-, -, hfile, rfl⟩ := makeDir_eq_ok_iff.mp h
  by_cases hne : place = []
  · subst hne
    rfl
  · have hup : place ∈ upTo place := mem_upTo_iff.mpr ⟨hne, List.prefix_rfl⟩
    cases hfind : d.find? place with
    | none => simp [isDir, find?_fill, hfind, hup]
    | some node =>
      cases node with
      | dir => simp [isDir, find?_fill, hfind]
      | file text => simp [fileAt, hfind] at hfile

/-- A file can be written into a directory that was just made. -/
theorem write_made (h : d.makeDir place = .ok d') (hname : checkPlace [name] = .ok ())
    (hfree : d.exists? (place ++ [name]) = false) (text : String) :
    d'.write (place ++ [name]) text = .ok (d'.put (place ++ [name]) (.file text)) := by
  have hdir := isDir_of_makeDir h
  obtain ⟨hplace, hbarred, hfile, rfl⟩ := makeDir_eq_ok_iff.mp h
  refine write_eq_ok_iff.mpr ⟨?_, ?_, ?_, ?_, rfl⟩
  · rw [checkPlace_eq_ok_iff] at hplace hname ⊢
    intro s hs
    exact (List.mem_append.mp hs).elim (hplace s) (hname s)
  · have hnone : d.find? (place ++ [name]) = none := by simpa [exists?] using hfree
    have hout : place ++ [name] ∉ upTo place := by
      intro hup
      have hle := (mem_upTo_iff.mp hup).2.length_le
      rw [List.length_append, List.length_singleton] at hle
      omega
    simp [isDir, find?_fill, hnone, hout]
  · rw [barred_eq_false_iff] at hbarred ⊢
    intro p hp
    rw [List.dropLast_concat] at hp
    rw [fileAt_fill]
    obtain rfl | ⟨above, last, rfl⟩ := List.eq_nil_or_concat place
    · rw [List.prefix_nil.mp hp, fileAt_nil]
    · rw [List.concat_eq_append] at hp hfile hbarred
      rcases List.prefix_concat_iff.mp hp with rfl | hp
      · exact hfile
      · exact hbarred p (by rwa [List.dropLast_concat])
  · rwa [List.dropLast_concat]

section Apart

/-- Neither of two places leads to the other. -/
def Apart (p q : List String) : Prop := ¬ p <+: q ∧ ¬ q <+: p

instance (p q : List String) : Decidable (Apart p q) :=
  inferInstanceAs (Decidable (¬ p <+: q ∧ ¬ q <+: p))

/-- What lies below a place is apart from what the place is apart from. -/
theorem Apart.of_prefix {r : List String} (h : Apart p q) (hr : p <+: r) : Apart r q := by
  refine ⟨fun hpre => h.1 (hr.trans hpre), fun hpre => ?_⟩
  rcases List.prefix_or_prefix_of_prefix hr hpre with hpq | hqp
  · exact h.1 hpq
  · exact h.2 hqp

theorem Apart.append (h : Apart p q) (r : List String) : Apart (p ++ r) q :=
  h.of_prefix (List.prefix_append p r)

theorem below_put (h : ¬ q <+: p) (node : Node) : (d.put p node).below q = d.below q := by
  have hp : q.isPrefixOf p = false := by
    rw [← Bool.not_eq_true, List.isPrefixOf_iff_prefix]
    exact h
  unfold below put
  simp only
  induction d.nodes with
  | nil => simp [replaceNode, h]
  | cons entry rest ih =>
    obtain ⟨place, n⟩ := entry
    by_cases hplace : place = p
    · simp only [replaceNode, hplace, if_true, List.filterMap_cons, hp, Bool.false_and,
        Bool.false_eq_true, if_false]
    · simp only [replaceNode, hplace, if_false, List.filterMap_cons, ih]

/-- What lies apart from a place is the same on two disks, and so is the way it is listed. -/
structure SameApart (place : List String) (d d' : Disk) : Prop where
  listing_eq : d'.listing = d.listing
  find?_eq : ∀ q, Apart place q → d'.find? q = d.find? q
  below_eq : ∀ q, Apart place q → d'.below q = d.below q

namespace SameApart

theorem refl (place : List String) (d : Disk) : SameApart place d d :=
  ⟨rfl, fun _ _ => rfl, fun _ _ => rfl⟩

theorem trans {d'' : Disk} (h : SameApart place d d') (h' : SameApart place d' d'') :
    SameApart place d d'' :=
  ⟨h'.listing_eq.trans h.listing_eq, fun q hq => (h'.find?_eq q hq).trans (h.find?_eq q hq),
    fun q hq => (h'.below_eq q hq).trans (h.below_eq q hq)⟩

theorem above (h : SameApart p d d') (hp : place <+: p) : SameApart place d d' :=
  ⟨h.listing_eq, fun q hq => h.find?_eq q (hq.of_prefix hp),
    fun q hq => h.below_eq q (hq.of_prefix hp)⟩

theorem put (h : p <+: place ∨ place <+: p) (node : Node) : SameApart place d (d.put p node) := by
  have hnot {q : List String} (hq : Apart place q) : ¬ q <+: p := by
    rcases h with h | h
    · exact fun hpre => hq.2 (hpre.trans h)
    · exact (hq.of_prefix h).2
  refine ⟨rfl, ?_, ?_⟩
  · intro q hq
    have hne : q ≠ [] := fun hnil => hq.2 (hnil ▸ List.nil_prefix)
    rw [find?_put hne, if_neg]
    rintro rfl
    exact hnot hq (List.prefix_refl p)
  · exact fun q hq => below_put (hnot hq) node

theorem fill (h : p <+: place ∨ place <+: p) : SameApart place d (d.fill p) := by
  have hway : ∀ r ∈ upTo p, r <+: place ∨ place <+: r := by
    intro r hr
    have hrp := (mem_upTo_iff.mp hr).2
    rcases h with h | h
    · exact .inl (hrp.trans h)
    · exact List.prefix_or_prefix_of_prefix hrp h
  unfold Disk.fill
  revert hway
  induction upTo p generalizing d with
  | nil => exact fun _ => refl place d
  | cons r rs ih =>
    intro hway
    obtain ⟨hr, hrs⟩ := List.forall_mem_cons.mp hway
    rw [List.foldl_cons]
    split
    · exact ih hrs
    · exact (put hr .dir).trans (ih hrs)

theorem addFile (h : place <+: p) (text : String) : SameApart place d (d.addFile p text) :=
  (fill (List.prefix_or_prefix_of_prefix (List.dropLast_prefix p) h)).trans (put (.inr h) _)

theorem fileAt_eq (h : SameApart place d d') (hq : Apart place q) : d'.fileAt q = d.fileAt q := by
  rw [fileAt, fileAt, h.find?_eq q hq]

theorem exists?_eq (h : SameApart place d d') (hq : Apart place q) :
    d'.exists? q = d.exists? q := by
  rw [exists?, exists?, h.find?_eq q hq]

end SameApart

theorem ne_nil_of_mem_below {parts : List String} (h : (parts, node) ∈ d.below place) :
    parts ≠ [] := by
  obtain ⟨⟨p, n⟩, -, hp⟩ := List.mem_filterMap.mp h
  simp only [Option.ite_none_right_eq_some, Bool.and_eq_true, decide_eq_true_eq, Option.some.injEq,
    Prod.mk.injEq] at hp
  obtain ⟨⟨-, hlen⟩, rfl, -⟩ := hp
  exact List.ne_nil_of_length_pos (by rw [List.length_drop]; omega)

end Apart

end DocSite.Disk

namespace DocSite

/-- The files of a tree, by the parts of their paths. -/
abbrev Tree := List String → Option String

/-- The files below a place. -/
def Disk.tree (disk : Disk) (place : List String) : Tree := fun parts =>
  disk.fileAt (place ++ parts)

theorem Disk.tree_remove (d : Disk) (place : List String) :
    (d.remove place).tree place = fun _ => none := by
  funext parts
  by_cases hne : place ++ parts = []
  · rw [Disk.tree, hne, Disk.fileAt_nil]
  · rw [Disk.tree, Disk.fileAt, Disk.find?_remove hne, if_pos (List.prefix_append place parts)]

/-- A place that can be made a directory can be made one again when it was emptied. -/
theorem Disk.makeDir_remove {d d' : Disk} {place : List String} (h : d.makeDir place = .ok d') :
    (d.remove place).makeDir place = .ok ((d.remove place).fill place) := by
  obtain ⟨hplace, hbarred, -, -⟩ := makeDir_eq_ok_iff.mp h
  refine makeDir_eq_ok_iff.mpr ⟨hplace, ?_, ?_, rfl⟩
  · rw [barred_eq_false_iff] at hbarred ⊢
    intro p hp
    by_cases hbelow : place <+: p
    · obtain ⟨q, rfl⟩ := hbelow
      exact congrFun (d.tree_remove place) q
    · rw [fileAt_remove hbelow]
      exact hbarred p hp
  · have hself := congrFun (d.tree_remove place) []
    rwa [Disk.tree, List.append_nil] at hself

theorem Disk.IsSound.tree_of_free {d : Disk} {place : List String} (h : d.IsSound)
    (hfree : d.find? place = none) : d.tree place = fun _ => none := by
  funext parts
  rw [Disk.tree, Disk.fileAt]
  by_cases hne : parts = []
  · rw [hne, List.append_nil, hfree]
  · have hnone := h.exists?_below hfree hne
    rw [Disk.exists?, Option.isSome_eq_false_iff, Option.isNone_iff_eq_none] at hnone
    rw [hnone]

theorem Disk.tree_fill (d : Disk) (q place : List String) :
    (d.fill q).tree place = d.tree place := by
  funext parts
  rw [Disk.tree, Disk.fileAt_fill, Disk.tree]

/-- The tree that files make up, the last text for a path counting. -/
def Tree.ofFiles (files : List (List String × String)) : Tree := fun parts =>
  (files.filter fun f => f.1 = parts).getLast?.map Prod.snd

theorem Tree.ofFiles_cons (f : List String × String) (files : List (List String × String))
    (parts : List String) :
    ofFiles (f :: files) parts =
      (ofFiles files parts).or (if f.1 = parts then some f.2 else none) := by
  by_cases h : f.1 = parts
  · cases hlast : (files.filter fun f => f.1 = parts).getLast? <;>
      simp [ofFiles, h, hlast, List.getLast?_cons]
  · simp [ofFiles, h]

theorem Tree.isSome_ofFiles {f : List String × String} {files : List (List String × String)}
    (h : f ∈ files) : (ofFiles files f.1).isSome := by
  have hne : files.filter (fun g => g.1 = f.1) ≠ [] :=
    List.ne_nil_of_mem (List.mem_filter.mpr ⟨h, by simp⟩)
  simpa [ofFiles] using hne

theorem Tree.ofFiles_eq_none {files : List (List String × String)} {parts : List String}
    (h : ∀ f ∈ files, f.1 ≠ parts) : ofFiles files parts = none := by
  have hnil : files.filter (fun f => f.1 = parts) = [] :=
    List.filter_eq_nil_iff.mpr fun f hf => by simpa using h f hf
  simp [ofFiles, hnil]

theorem Tree.ofFiles_append (files later : List (List String × String)) (parts : List String) :
    ofFiles (files ++ later) parts = (ofFiles later parts).or (ofFiles files parts) := by
  induction files with
  | nil => simp [ofFiles]
  | cons f files ih => rw [List.cons_append, ofFiles_cons, ofFiles_cons, ih, Option.or_assoc]

end DocSite
