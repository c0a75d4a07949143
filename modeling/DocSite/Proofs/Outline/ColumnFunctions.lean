import DocSite.Proofs.Outline.Levels

namespace DocSite.Outline

open Xml

/-- Where an element stands, as far as the column functions of modules are concerned. -/
inductive Standing
  | elsewhere
  | inTab
  | inGroup
  | inModule
  deriving DecidableEq

def isTabOutline (e : Element) : Bool := e.name = "outline" && isTab e

namespace Standing

/-- Where the children of an element stand. A module counts in a group directly below a tab. -/
def below (s : Standing) (e : Element) : Standing :=
  if isTabOutline e then .inTab
  else if s = .inTab ∧ kindOf? e = some "group" then .inGroup
  else if s = .inGroup ∧ kindOf? e = some "module" then .inModule
  else .elsewhere

def drops (s : Standing) (e : Element) : Bool := s = .inModule && kindOf? e = some "udf"

end Standing

mutual

/-- An element without the column functions that modules in the groups of tabs list. -/
def prune (s : Standing) : Element → Element
  | .node name attributes children =>
    .node name attributes (pruneEach (s.below (.node name attributes children)) children)

def pruneEach (s : Standing) : List Element → List Element
  | [] => []
  | e :: es => if s.drops e then pruneEach s es else prune s e :: pruneEach s es

end

section Prune

variable {s : Standing} {e : Element}

theorem pruneEach_eq (s : Standing) (es : List Element) :
    pruneEach s es = (es.filter fun e => !s.drops e).map (prune s) := by
  induction es with
  | nil => rfl
  | cons e es ih =>
    rw [pruneEach, ih]
    cases h : s.drops e <;> simp [h]

theorem drops_of_ne (h : s ≠ .inModule) (e : Element) : s.drops e = false := by
  simp [Standing.drops, h]

theorem pruneEach_of_ne (h : s ≠ .inModule) (es : List Element) :
    pruneEach s es = es.map (prune s) := by
  have hall : (es.filter fun e => !s.drops e) = es :=
    List.filter_eq_self.mpr fun e _ => by rw [drops_of_ne h, Bool.not_false]
  rw [pruneEach_eq, hall]

theorem children_prune (s : Standing) (e : Element) :
    (prune s e).children = pruneEach (s.below e) e.children := by
  cases e
  rfl

@[simp] theorem entryOf?_prune (s : Standing) (e : Element) :
    entryOf? (prune s e) = entryOf? e := by
  cases e
  rfl

@[simp] theorem isTabOutline_prune (s : Standing) (e : Element) :
    isTabOutline (prune s e) = isTabOutline e := by
  have hname : (prune s e).name = e.name := by
    cases e
    rfl
  rw [isTabOutline, isTabOutline, isTab, isTab, kindOf?, kindOf?, entryOf?_prune, hname]

theorem not_isTabOutline {kind : String} (hkind : kindOf? e = some kind) (htab : kind ≠ "tab") :
    isTabOutline e = false := by
  simp [isTabOutline, isTab, hkind, htab]

theorem below_eq_inModule :
    s.below e = .inModule ↔ s = .inGroup ∧ kindOf? e = some "module" := by
  constructor
  · intro h
    unfold Standing.below at h
    split at h
    · cases h
    · split at h
      · cases h
      · split at h
        · assumption
        · cases h
  · rintro ⟨rfl, hkind⟩
    rw [Standing.below, not_isTabOutline hkind (by decide)]
    simp [hkind]

theorem below_ne_inModule (h : s ≠ .inGroup) (e : Element) : s.below e ≠ .inModule :=
  fun hbelow => h (below_eq_inModule.mp hbelow).1

theorem below_elsewhere (h : isTabOutline e = false) :
    Standing.below .elsewhere e = .elsewhere := by
  simp [Standing.below, h]

theorem firstTab?_eq (root : Element) :
    firstTab? root = root.descendants.find? isTabOutline := by
  rw [firstTab?, outlines, List.find?_filter]
  congr 1
  funext e
  simp [isTabOutline]

mutual

/-- No element above the first tab stands in a module, so that this tab stays the first. -/
theorem find?_descendants_prune : ∀ e : Element,
    (prune .elsewhere e).descendants.find? isTabOutline =
      (e.descendants.find? isTabOutline).map (prune .elsewhere)
  | .node name attributes children => by
    have hprune := isTabOutline_prune .elsewhere (.node name attributes children)
    rw [prune] at hprune ⊢
    rw [Element.descendants, Element.descendants, List.find?_cons, List.find?_cons, hprune]
    cases htab : isTabOutline (.node name attributes children) with
    | true => rw [Option.map_some, prune]
    | false =>
      rw [below_elsewhere htab, pruneEach_of_ne (by decide)]
      exact find?_descendantsOfAll_prune children

theorem find?_descendantsOfAll_prune : ∀ es : List Element,
    (Element.descendantsOfAll (es.map (prune .elsewhere))).find? isTabOutline =
      ((Element.descendantsOfAll es).find? isTabOutline).map (prune .elsewhere)
  | [] => rfl
  | e :: es => by
    rw [List.map_cons, Element.descendantsOfAll, Element.descendantsOfAll, List.find?_append,
      List.find?_append, find?_descendants_prune e, find?_descendantsOfAll_prune es, Option.map_or]

end

/-- What is found of the children goes through pruning, if it does so child by child. -/
theorem filterMap_children_prune {α : Type} {found : Element → Entry → Option (Element × α)}
    (h : s.below e ≠ .inModule) (hfound : ∀ c entry, found (prune (s.below e) c) entry =
      (found c entry).map fun a => (prune (s.below e) a.1, a.2)) :
    (prune s e).children.filterMap (fun c => (entryOf? c).bind (found c)) =
      (e.children.filterMap fun c => (entryOf? c).bind (found c)).map
        fun a => (prune (s.below e) a.1, a.2) := by
  rw [children_prune, pruneEach_of_ne h, List.filterMap_map, List.map_filterMap]
  congr 1
  funext c
  rw [Function.comp_apply, entryOf?_prune]
  cases entryOf? c with
  | none => rfl
  | some entry => exact hfound c entry

theorem groupsOf_prune (h : s.below e ≠ .inModule) :
    groupsOf (prune s e) = (groupsOf e).map fun g => (prune (s.below e) g.1, g.2) :=
  filterMap_children_prune h fun c entry => by split <;> rfl

theorem itemsOf_prune (h : s.below e ≠ .inModule) :
    itemsOf (prune s e) = (itemsOf e).map fun i => (prune (s.below e) i.1, i.2) :=
  filterMap_children_prune h fun c entry => by split <;> rfl

theorem filterMap_entryOf?_prune (s : Standing) (es : List Element) :
    (es.map (prune s)).filterMap entryOf? = es.filterMap entryOf? := by
  rw [List.filterMap_map]
  congr 1
  funext e
  exact entryOf?_prune s e

theorem childNames_prune (h : s.below e ≠ .inModule) : childNames (prune s e) = childNames e := by
  rw [childNames, childEntries, children_prune, pruneEach_of_ne h, filterMap_entryOf?_prune]
  rfl

theorem childEntries_prune_module (h : s.below e = .inModule) :
    childEntries (prune s e) = (childEntries e).filter fun c => c.kind ≠ "udf" := by
  rw [childEntries, children_prune, h, pruneEach_eq, filterMap_entryOf?_prune, childEntries,
    List.filterMap_filter, List.filter_filterMap]
  congr 1
  funext c
  rw [Standing.drops, kindOf?]
  cases entryOf? c with
  | none => simp
  | some entry => by_cases hkind : entry.kind = "udf" <;> simp [hkind, Option.filter]

end Prune

section Pages

variable {e : Element} {entry : Entry} {groups : List String}

/-- The functions that a module lists when it has no column functions are its plain ones. -/
theorem listedFunctions_prune {s : Standing} (h : s.below e = .inModule) :
    listedFunctions .withColumnFunctions (prune s e) = listedFunctions .plainFunctions e := by
  rw [listedFunctions, childEntries_prune_module h, List.filter_filter, listedFunctions]
  congr 1
  funext c
  by_cases hudf : c.kind = "udf" <;> simp [Reading.functionKinds, hudf]

theorem classPages_prune {s : Standing} (h : s.below e = .inModule) :
    classPages groups (prune s e) = classPages groups e := by
  rw [classPages, children_prune, h, pruneEach_eq, List.filterMap_map, List.filterMap_filter,
    classPages]
  congr 1
  funext c
  have hnames : childNames (prune .inModule c) = childNames c :=
    childNames_prune (below_ne_inModule (by decide) c)
  rw [Function.comp_apply, entryOf?_prune, hnames, Standing.drops, kindOf?]
  rcases entryOf? c with _ | ⟨kind, path⟩
  · rfl
  · by_cases hudf : kind = "udf" <;> simp [hudf]

theorem pageKind_eq_module {kind : String} : pageKind kind = "module" ↔ kind = "module" :=
  pageKind_eq_iff (.inl rfl)

theorem outerPages_prune (hentry : entryOf? e = some entry) :
    (outerPages .withColumnFunctions groups (prune .inGroup e) entry).map PageItem.untyped =
      (outerPages .plainFunctions groups e entry).map PageItem.untyped := by
  have hkind : kindOf? e = some entry.kind := by rw [kindOf?, hentry, Option.map_some]
  by_cases hmodule : entry.kind = "module"
  · have hbelow : Standing.below .inGroup e = .inModule :=
      below_eq_inModule.mpr ⟨rfl, hmodule ▸ hkind⟩
    simp [outerPages, pageKind_eq_module.mpr hmodule, listedFunctions_prune hbelow,
      classPages_prune hbelow, PageItem.untyped]
  · have hbelow : Standing.below .inGroup e ≠ .inModule := fun h =>
      hmodule (Option.some.inj (hkind.symm.trans (below_eq_inModule.mp h).2))
    simp only [outerPages, pageKind_eq_module, hmodule, if_false, childNames_prune hbelow]

theorem innerPage_prune (groups : List String) (e : Element) (entry : Entry) :
    innerPage groups (prune .elsewhere e) entry = innerPage groups e entry := by
  rw [innerPage, childNames_prune (below_ne_inModule (by decide) e)]
  rfl

theorem innerGroup_prune {outer name : String} (hentry : entryOf? e = some ⟨"group", name⟩) :
    innerGroup outer (prune .inGroup e) name = innerGroup outer e name := by
  have hkind : kindOf? e = some "group" := kindOf?_eq_some.mpr ⟨name, hentry⟩
  have hbelow : Standing.below .inGroup e = .elsewhere := by
    simp [Standing.below, not_isTabOutline hkind, hkind]
  rw [innerGroup, itemsOf_prune (by simp [hbelow]), List.map_map, innerGroup, hbelow]
  simp [Function.comp_def, innerPage_prune]

end Pages

mutual

def Group.untyped : Group → Group
  | .node name pages subgroups => .node name (pages.map PageItem.untyped) (untypedEach subgroups)

def Group.untypedEach : List Group → List Group
  | [] => []
  | g :: gs => untyped g :: untypedEach gs

end

/-- A tab where the kinds of names are not told. -/
def Tab.untyped (t : Tab) : Tab := ⟨t.name, Group.untypedEach t.groups⟩

theorem untypedEach_eq_map (gs : List Group) : Group.untypedEach gs = gs.map Group.untyped := by
  induction gs with
  | nil => rfl
  | cons g gs ih => rw [Group.untypedEach, ih, List.map_cons]

mutual

theorem allPages_untyped : ∀ g : Group, g.untyped.allPages = g.allPages.map PageItem.untyped
  | .node name pages subgroups => by
    rw [Group.untyped, Group.allPages, allPagesOf_untypedEach subgroups, Group.allPages,
      List.map_append]

theorem allPagesOf_untypedEach : ∀ gs : List Group,
    Group.allPagesOf (Group.untypedEach gs) = (Group.allPagesOf gs).map PageItem.untyped
  | [] => rfl
  | g :: gs => by
    rw [Group.untypedEach, Group.allPagesOf, allPages_untyped g, allPagesOf_untypedEach gs,
      Group.allPagesOf, List.map_append]

end

theorem pages_untyped (t : Tab) : t.untyped.pages = t.pages.map PageItem.untyped :=
  allPagesOf_untypedEach t.groups

section Tab

variable {e : Element} {name : String}

theorem outerGroup_prune (hentry : entryOf? e = some ⟨"group", name⟩) :
    (outerGroup .withColumnFunctions (prune .inTab e) name).untyped =
      (outerGroup .plainFunctions e name).untyped := by
  have hkind : kindOf? e = some "group" := kindOf?_eq_some.mpr ⟨name, hentry⟩
  have hbelow : Standing.below .inTab e = .inGroup := by
    simp [Standing.below, not_isTabOutline hkind, hkind]
  rw [outerGroup, itemsOf_prune (by simp [hbelow]), groupsOf_prune (by simp [hbelow]), outerGroup,
    Group.untyped, Group.untyped, hbelow]
  have hpages : ((itemsOf e).map fun i => (prune .inGroup i.1, i.2)).flatMap
        (fun i => (outerPages .withColumnFunctions [name] i.1 i.2).map PageItem.untyped) =
      (itemsOf e).flatMap fun i =>
        (outerPages .plainFunctions [name] i.1 i.2).map PageItem.untyped := by
    rw [List.flatMap_map, List.flatMap_def, List.flatMap_def]
    congr 1
    refine List.map_congr_left fun i hi => ?_
    obtain ⟨-, hitem, -⟩ := mem_itemsOf.mp hi
    exact outerPages_prune hitem
  have hgroups : ((groupsOf e).map fun g => (prune .inGroup g.1, g.2)).map
        (fun g => innerGroup name g.1 g.2) =
      (groupsOf e).map fun g => innerGroup name g.1 g.2 := by
    rw [List.map_map]
    refine List.map_congr_left fun g hg => ?_
    obtain ⟨-, hgroup⟩ := mem_groupsOf.mp hg
    exact innerGroup_prune hgroup
  rw [List.map_flatMap, List.map_flatMap, hpages, hgroups]

theorem tabOf_prune (htab : isTabOutline e = true) :
    (tabOf .withColumnFunctions (prune .elsewhere e)).untyped =
      (tabOf .plainFunctions e).untyped := by
  have hbelow : Standing.below .elsewhere e = .inTab := by rw [Standing.below, if_pos htab]
  rw [tabOf, groupsOf_prune (by simp [hbelow]), hbelow, entryOf?_prune, tabOf, Tab.untyped,
    Tab.untyped, untypedEach_eq_map, untypedEach_eq_map, List.map_map, List.map_map, List.map_map]
  congr 1
  refine List.map_congr_left fun g hg => ?_
  obtain ⟨-, hgroup⟩ := mem_groupsOf.mp hg
  exact outerGroup_prune hgroup

end Tab

/-- Reading without column functions is reading with them a document that modules in the groups of
tabs list none in, but for the kinds of the names that are listed. -/
theorem reading_plain_eq_pruned (root : Element) :
    (readTab? .plainFunctions root).map Tab.untyped =
        (readTab? .withColumnFunctions (prune .elsewhere root)).map Tab.untyped ∧
      (pagesOf .plainFunctions root).map PageItem.untyped =
        (pagesOf .withColumnFunctions (prune .elsewhere root)).map PageItem.untyped := by
  have htabs : (readTab? .plainFunctions root).map Tab.untyped =
      (readTab? .withColumnFunctions (prune .elsewhere root)).map Tab.untyped := by
    rw [readTab?_eq, readTab?_eq, firstTab?_eq, firstTab?_eq, find?_descendants_prune]
    cases hfound : root.descendants.find? isTabOutline with
    | none => rfl
    | some e =>
      have htab := List.find?_some hfound
      rw [Option.map_some, Option.map_some, Option.map_some, Option.map_some, Option.map_some,
        tabOf_prune htab]
  have hpages (r : Reading) (root : Element) : (pagesOf r root).map PageItem.untyped =
      (((readTab? r root).map Tab.untyped).map Tab.pages).getD [] := by
    rw [pagesOf]
    cases readTab? r root with
    | none => rfl
    | some t => simp [pages_untyped]
  exact ⟨htabs, by rw [hpages, hpages, htabs]⟩

end DocSite.Outline
