import DocSite.Proofs.Page.Publication
import DocSite.Proofs.StableSort

/-!
Pages do not depend on the order in which names are listed for them: what is found under the names
is sorted before anything is made of it. Only what is told of names that are missing follows the
list.
-/

namespace DocSite

namespace Api

theorem mergeSort_names_eq {names names' : List String} (h : names.Perm names') :
    (names.mergeSort fun a b => a ≤ b) = names'.mergeSort fun a b => a ≤ b := by
  apply StableSort.mergeSort_eq_of_perm _ _ h
  · intro a _ b _ htied
    simp only [StableSort.tied, Bool.and_eq_true, decide_eq_true_eq] at htied
    exact String.le_antisymm htied.1 htied.2
  · simpa using fun a b c => String.le_trans
  · simpa using String.le_total

/-- Entries that are looked up under their names have one order. -/
theorem sortByName_eq_of_perm {α : Type} (lookup : String → Option α)
    {entries entries' : List (String × α)} (h : entries.Perm entries')
    (hlookup : ∀ a ∈ entries, lookup a.1 = some a.2) :
    sortByName entries = sortByName entries' := by
  apply StableSort.mergeSort_eq_of_perm _ _ h
  · intro a ha b hb htied
    simp only [StableSort.tied, Bool.and_eq_true, decide_eq_true_eq] at htied
    have hname : a.1 = b.1 := String.le_antisymm htied.1 htied.2
    have hvalue : some a.2 = some b.2 := by rw [← hlookup a ha, ← hlookup b hb, hname]
    exact Prod.ext hname (Option.some.inj hvalue)
  · intro a b c
    simpa using String.le_trans
  · intro a b
    simpa using String.le_total a.1 b.1

end Api

namespace Job

variable {α β : Type} {x : Job α} {f : α → Job β}

/-- A job that tells nothing and does not look at what was told. -/
def Mute (x : Job α) : Prop :=
  ∀ k out, x.result { k with out := out } = ((x.result k).1, { (x.result k).2 with out := out })

namespace Mute

theorem pure (a : α) : Mute (Pure.pure a) := fun _ _ => rfl

theorem disk : Mute Job.disk := fun _ _ => rfl

theorem setDisk (d : Disk) : Mute (Job.setDisk d) := fun _ _ => rfl

theorem fail (fault : Fault) : Mute (Job.fail fault : Job α) := fun _ _ => rfl

theorem ofExcept (r : Except Fault α) : Mute (Job.ofExcept r) := by
  cases r with
  | error fault => exact fail fault
  | ok a => exact pure a

theorem ofHalting (r : Except Halt α) : Mute (Job.ofHalting r) := by
  cases r with
  | error halt => exact fun _ _ => rfl
  | ok a => exact pure a

theorem bind (hx : Mute x) (hf : ∀ a, Mute (f a)) : Mute (x >>= f) := by
  intro k out
  rw [result_bind, result_bind, hx k out]
  rcases x.result k with ⟨halt | a, k'⟩
  · rfl
  · exact hf a k' out

theorem mapM {g : α → Job β} (h : ∀ a, Mute (g a)) (as : List α) : Mute (as.mapM g) := by
  induction as with
  | nil => exact pure []
  | cons a as ih =>
    rw [List.mapM_cons]
    exact bind (h a) fun _ => bind ih fun _ => pure _

theorem change (g : Disk → Except Fault Disk) : Mute (Job.change g) :=
  bind disk fun _ => bind (ofExcept _) fun _ => setDisk _

theorem writeText (place : List String) (cs : List Char) : Mute (Job.writeText place cs) := by
  unfold Job.writeText
  split
  · exact change _
  · exact bind (change _) fun _ => fail _

end Mute

/-- Jobs that end in the same way and leave the same behind, but for the order of the lines that
they tell. -/
def Alike (x y : Job α) : Prop :=
  ∀ k, ∃ (r : Except Halt α) (k' : Desk) (lines lines' : List String), lines.Perm lines' ∧
    x.result k = (r, { k' with out := k.out ++ String.join lines }) ∧
    y.result k = (r, { k' with out := k.out ++ String.join lines' })

/-- Two jobs that come to the same one, which tells nothing, after they have told their lines. -/
theorem Mute.alike {y z : Job α} (hz : Mute z) {lines lines' : List String}
    (hlines : lines.Perm lines')
    (hx : ∀ k, x.result k = z.result { k with out := k.out ++ String.join lines })
    (hy : ∀ k, y.result k = z.result { k with out := k.out ++ String.join lines' }) :
    Alike x y := fun k =>
  ⟨_, _, lines, lines', hlines, (hx k).trans (hz k _), (hy k).trans (hz k _)⟩

theorem Mute.alike_self (h : Mute x) : Alike x x := by
  have hnone (k : Desk) : x.result k = x.result { k with out := k.out ++ String.join [] } := by
    simp
  exact h.alike (.refl []) hnone hnone

theorem Alike.ofExcept_bind {r : Except Fault α} {g : α → Job β} (h : ∀ a, (f a).Alike (g a)) :
    (Job.ofExcept r >>= f).Alike (Job.ofExcept r >>= g) := by
  cases r with
  | error fault => exact (Mute.fail fault).alike_self
  | ok a => exact h a

end Job

namespace Page

open Api

variable {s : Setting} {path : String} {m : Module} {names names' children children' : List String}

section ModulePage

variable {functions functions' : List (String × Entity)} {kinds : OrderedMap String}

theorem membersNamed_perm (m : Module) (h : names.Perm names') :
    (membersNamed m names).Perm (membersNamed m names') := h.filterMap _

theorem get?_of_mem_membersNamed {a : String × Entity} (ha : a ∈ membersNamed m names) :
    m.get? a.1 = some a.2 := by
  obtain ⟨n, -, hn⟩ := List.mem_filterMap.mp ha
  obtain ⟨e, he, rfl⟩ := Option.map_eq_some_iff.mp hn
  exact he

theorem functionSections_eq (h : sortByName functions = sortByName functions')
    (udf? : Option Bool) : functionSections s functions udf? = functionSections s functions' udf? := by
  rw [functionSections, h, functionSections]

theorem moduleFunctions_perm (h : children.Perm children') :
    moduleFunctions s path m children kinds = moduleFunctions s path m children' kinds := by
  have hsorted (p : String × Entity → Bool) :
      sortByName ((membersNamed m children).filter p) =
        sortByName ((membersNamed m children').filter p) :=
    sortByName_eq_of_perm m.get? ((membersNamed_perm m h).filter p)
      fun a ha => get?_of_mem_membersNamed (List.mem_filter.mp ha).1
  unfold moduleFunctions
  simp only [List.partition_eq_filter_filter, h.isEmpty_eq, functionSections_eq (hsorted _)]

theorem classNames_perm (m : Module) (h : names.Perm names') :
    (classNames m names).Perm (classNames m names') :=
  ((membersNamed_perm m h).filter _).map _

theorem classLinks_perm (h : names.Perm names') :
    classLinks s path names = classLinks s path names' := by
  rw [classLinks, mergeSort_names_eq h, classLinks]

theorem modulePage_perm (h : children.Perm children') :
    modulePage s path (some children) kinds = modulePage s path (some children') kinds := by
  have hcontents (m : Module) :
      moduleContents s path m children children kinds =
        moduleContents s path m children' children' kinds := by
    unfold moduleContents
    simp only [(classNames_perm m h).isEmpty_eq, classLinks_perm (classNames_perm m h),
      moduleFunctions_perm h]
  unfold modulePage
  simp only [Option.some_or, Option.getD_some, hcontents]

end ModulePage

section ClassPage

variable {info : ClassInfo} {layers : List (Layer Entity)}

theorem mute_publish (s : Setting) (name text : String) : (s.publish name text).Mute :=
  .bind (.change _) fun _ => .bind (.writeText _ _) fun _ => .pure _

def method? (layers : List (Layer Entity)) (name : String) : Option (String × Entity) :=
  (member? name layers).bind fun e => if e.isMethod then some (name, e) else none

/-- What is told of a name under which a class has nothing to read. -/
def absence? (path : String) (info : ClassInfo) (layers : List (Layer Entity)) (name : String) :
    Option String :=
  let isSilent :=
    match member? name layers with
    | none => isInherent name || (declaredNames info).contains name
    | some _ => isReadable name layers
  if isSilent then none else some ("        ⚠️ Method " ++ name ++ " not found in " ++ path ++ "\n")

theorem result_listedMethod (name : String) (k : Desk) :
    (listedMethod path info layers name).result k =
      (.ok (method? layers name),
        { k with out := k.out ++ String.join (absence? path info layers name).toList }) := by
  unfold listedMethod absence? method?
  cases member? name layers with
  | none =>
    dsimp only
    cases isInherent name || (declaredNames info).contains name with
    | true => simp
    | false => rfl
  | some e =>
    dsimp only
    cases isReadable name layers with
    | true => simp
    | false => rfl

theorem result_mapM_listedMethod (children : List String) (k : Desk) :
    (children.mapM (listedMethod path info layers)).result k =
      (.ok (children.map (method? layers)),
        { k with out := k.out ++ String.join (children.filterMap (absence? path info layers)) }) := by
  induction children generalizing k with
  | nil => simp
  | cons name children ih =>
    rw [List.mapM_cons, Job.bind_of_ok (result_listedMethod name k), Job.bind_of_ok (ih _),
      Job.result_pure]
    cases habsence : absence? path info layers name with
    | none => simp [habsence]
    | some line => simp [habsence, String.append_assoc]

def sectionsOf (s : Setting) (methods : List (String × Entity)) : Job String := do
  let sections ← (sortByName methods).mapM fun (name, e) =>
    Job.ofHalting (Section.function s.aids .method e name none)
  return String.join sections

theorem mute_sectionsOf (s : Setting) (methods : List (String × Entity)) :
    (sectionsOf s methods).Mute :=
  .bind (.mapM (fun _ => .ofHalting _) _) fun _ => .pure _

def documented (layers : List (Layer Entity)) (children : List String) :
    List (String × Entity) :=
  if children.isEmpty then publicMethods layers else children.filterMap (method? layers)

theorem result_methodSections (children : List String) (k : Desk) :
    (methodSections s path info layers children).result k =
      (sectionsOf s (documented layers children)).result
        { k with out := k.out ++ String.join (children.filterMap (absence? path info layers)) } := by
  -- what is told comes before any section is made
  unfold methodSections documented
  cases children with
  | nil => simp [sectionsOf]
  | cons name children =>
    simp only [List.isEmpty_cons, Bool.false_eq_true, if_false]
    rw [map_eq_pure_bind, bind_assoc, Job.bind_of_ok (result_mapM_listedMethod _ k), pure_bind,
      List.filterMap_map]
    rfl

theorem documented_perm (h : children.Perm children') :
    sortByName (documented layers children) = sortByName (documented layers children') := by
  unfold documented
  rw [h.isEmpty_eq]
  split
  · rfl
  · refine sortByName_eq_of_perm (fun name => member? name layers) (h.filterMap _) ?_
    intro a ha
    obtain ⟨name, -, hname⟩ := List.mem_filterMap.mp ha
    obtain ⟨e, he, hmethod⟩ := Option.bind_eq_some_iff.mp hname
    split at hmethod
    · cases hmethod
      exact he
    · cases hmethod

theorem methodSections_bind_alike {α : Type} {f : String → Job α} (h : children.Perm children')
    (hf : ∀ text, (f text).Mute) :
    (methodSections s path info layers children >>= f).Alike
      (methodSections s path info layers children' >>= f) := by
  have hsections : sectionsOf s (documented layers children') =
      sectionsOf s (documented layers children) := by
    rw [sectionsOf, ← documented_perm h, sectionsOf]
  -- both jobs go on in the same way once they have told what is missing
  refine ((mute_sectionsOf s (documented layers children)).bind hf).alike
    (h.filterMap (absence? path info layers)) (fun k => ?_) (fun k => ?_)
  · rw [Job.result_bind, result_methodSections, Job.result_bind]
  · rw [Job.result_bind, result_methodSections, hsections, Job.result_bind]

theorem classPage_alike (s : Setting) (path : String) (h : children.Perm children') :
    (classPage s path children).Alike (classPage s path children') := by
  unfold classPage
  refine .ofExcept_bind fun found => ?_
  rcases found with reason | ⟨info, layers⟩
  · exact (mute_publish _ _ _).alike_self
  · exact .ofExcept_bind fun source => methodSections_bind_alike h fun _ =>
      .bind (.ofExcept _) fun _ => mute_publish _ _ _

end ClassPage

/-- The order in which names are listed for a page makes no difference. The page of a module is
made in the same way in every respect, with the pages of its classes. The page of a class is
written with the same text, or not at all for the same reason, and its path is the same; only the
lines about names that the class lacks come in another order. -/
theorem pages_ignore_order (s : Setting) (path : String) (kinds : OrderedMap String)
    {children children' : List String} (h : children.Perm children') :
    modulePage s path (some children) kinds = modulePage s path (some children') kinds ∧
      (classPage s path children).Alike (classPage s path children') :=
  ⟨modulePage_perm h, classPage_alike s path h⟩

/-- A function without parameters and text. -/
def bareFunction (name : String) : Entity :=
  .func ⟨name, none, ⟨[], none⟩, none, .plain, false, .absent⟩

/-- A world in which one path leads to a module and to a class, with the same functions. -/
def moduleAndClass : Setting where
  aids := ⟨fun _ => ⟨none, none, none, [], none, [], []⟩, .absent⟩
  world := [
    ⟨"m", none, [("C", .cls ⟨"C", none, .absent, [], .plain, [], []⟩
      [⟨none, [("a", bareFunction "a"), ("b", bareFunction "b")]⟩])], .refused, none, none, []⟩,
    ⟨"m.C", none, [("a", bareFunction "a"), ("b", bareFunction "b")], .refused, none, none, []⟩]
  version := "latest"
  showErrors := false
  repository := "pixeltable/pixeltable"
  output := ["out"]
  hidden := []
  makesClasses := true

theorem pages_ignore_order_reversed :
    let listed := ["b", "y", "x", "a"]
    let listed' := ["a", "x", "y", "b"]
    listed.Perm listed' ∧
      modulePage moduleAndClass "m.C" (some listed) [("b", "udf")] =
        modulePage moduleAndClass "m.C" (some listed') [("b", "udf")] ∧
      (classPage moduleAndClass "m.C" listed).Alike (classPage moduleAndClass "m.C" listed') := by
  have h : ["b", "y", "x", "a"].Perm ["a", "x", "y", "b"] :=
    (List.reverse_perm ["b", "y", "x", "a"]).symm
  exact ⟨h, pages_ignore_order moduleAndClass "m.C" _ h⟩

end Page

end DocSite
