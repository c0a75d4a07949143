import DocSite.Outline.Reader
import DocSite.Proofs.Text

namespace DocSite.Outline

open Xml

variable {e c : Element} {entry : Entry} {name : String}

def kindOf? (e : Element) : Option String := (entryOf? e).map Entry.kind

theorem kindOf?_eq_some {kind : String} :
    kindOf? e = some kind ↔ ∃ path, entryOf? e = some ⟨kind, path⟩ := by
  rw [kindOf?, Option.map_eq_some_iff]
  constructor
  · rintro ⟨entry, hentry, rfl⟩
    exact ⟨entry.path, hentry⟩
  · rintro ⟨path, hentry⟩
    exact ⟨_, hentry, rfl⟩

def outline (entry : Entry) (children : List Element) : Element :=
  .node "outline" [("text", entry.kind ++ "|" ++ entry.path)] children

theorem entryOf?_outline (h : '|' ∉ entry.kind.toList) (children : List Element) :
    entryOf? (outline entry children) = some entry := by
  have htext : textOf (outline entry children) = entry.kind ++ "|" ++ entry.path := rfl
  have hchars : (entry.kind ++ "|" ++ entry.path).toList =
      entry.kind.toList ++ '|' :: entry.path.toList := by simp
  rw [entryOf?, readEntry?, htext, hchars, Text.cutAt?_append h]
  simp

def isTab (e : Element) : Bool := kindOf? e = some "tab"

/-- The outline of a document that its tab is read from. -/
def firstTab? (root : Element) : Option Element := (outlines root).find? isTab

def tabOf (r : Reading) (e : Element) : Tab :=
  ⟨((entryOf? e).map Entry.path).getD "", (groupsOf e).map fun g => outerGroup r g.1 g.2⟩

theorem readTab?_eq (r : Reading) (root : Element) :
    readTab? r root = (firstTab? root).map (tabOf r) := by
  rw [firstTab?, List.find?_eq_findSome?_guard, List.map_findSome?, readTab?]
  congr 1
  funext e
  by_cases htab : kindOf? e = some "tab"
  · obtain ⟨name, hentry⟩ := kindOf?_eq_some.mp htab
    simp [isTab, htab, hentry, tabOf]
  · have hguard : Option.guard isTab e = none := by simp [isTab, htab]
    rw [Function.comp_apply, hguard, Option.map_none]
    split
    · rename_i name hentry
      exact absurd (kindOf?_eq_some.mpr ⟨name, hentry⟩) htab
    · rfl

theorem mem_groupsOf :
    (c, name) ∈ groupsOf e ↔ c ∈ e.children ∧ entryOf? c = some ⟨"group", name⟩ := by
  rw [groupsOf, List.mem_filterMap]
  constructor
  · rintro ⟨a, ha, hsome⟩
    obtain ⟨⟨kind, path⟩, hentry, hkind⟩ := Option.bind_eq_some_iff.mp hsome
    split at hkind
    · cases hkind
      simp_all
    · cases hkind
  · rintro ⟨hc, hentry⟩
    exact ⟨c, hc, by simp [hentry]⟩

theorem mem_itemsOf :
    (c, entry) ∈ itemsOf e ↔ c ∈ e.children ∧ entryOf? c = some entry ∧ entry.kind ≠ "group" := by
  rw [itemsOf, List.mem_filterMap]
  constructor
  · rintro ⟨a, ha, hsome⟩
    obtain ⟨found, hentry, hkind⟩ := Option.bind_eq_some_iff.mp hsome
    split at hkind
    · cases hkind
    · cases hkind
      exact ⟨ha, hentry, ‹_›⟩
  · rintro ⟨hc, hentry, hkind⟩
    exact ⟨c, hc, by simp [hentry, hkind]⟩

theorem pageKind_eq_iff {kind found : String} (h : found = "module" ∨ found = "class") :
    pageKind kind = found ↔ kind = found := by
  rw [pageKind]
  split
  · rename_i hkind
    rw [hkind]
    rcases h with rfl | rfl <;> decide
  · rfl

theorem allPagesOf_eq_flatMap (gs : List Group) :
    Group.allPagesOf gs = gs.flatMap Group.allPages := by
  induction gs with
  | nil => rfl
  | cons g gs ih => rw [Group.allPagesOf, ih, List.flatMap_cons]

theorem allPages_innerGroup (outer : String) (e : Element) (name : String) :
    (innerGroup outer e name).allPages =
      (itemsOf e).map fun i => innerPage [outer, name] i.1 i.2 := by
  rw [innerGroup, Group.allPages, Group.allPagesOf, List.append_nil]

theorem allPages_outerGroup (r : Reading) (e : Element) (name : String) :
    (outerGroup r e name).allPages =
      ((itemsOf e).flatMap fun i => outerPages r [name] i.1 i.2) ++
        (groupsOf e).flatMap fun g => (innerGroup name g.1 g.2).allPages := by
  rw [outerGroup, Group.allPages, allPagesOf_eq_flatMap, List.flatMap_map]

theorem pages_tabOf (r : Reading) (e : Element) :
    (tabOf r e).pages = (groupsOf e).flatMap fun g => (outerGroup r g.1 g.2).allPages := by
  rw [Tab.pages, allPagesOf_eq_flatMap, tabOf, List.flatMap_map]

/-- All pages of the tab of a document, which may have none. -/
def pagesOf (r : Reading) (root : Element) : List PageItem :=
  ((readTab? r root).map Tab.pages).getD []

/-- A page that only its paths and names count of, whatever the kinds of the names. -/
def PageItem.untyped (p : PageItem) : PageItem := { p with kinds? := none }

/-- An element that is all there is in a group of a tab. -/
def inGroup (tab group : String) (e : Element) : Element :=
  outline ⟨"tab", tab⟩ [outline ⟨"group", group⟩ [e]]

/-- An element that is all there is in a group inside of a group of a tab. -/
def inSubgroup (tab group inner : String) (e : Element) : Element :=
  inGroup tab group (outline ⟨"group", inner⟩ [e])

def PageItem.ungrouped (p : PageItem) : PageItem := { p with groups := [] }

section Documents

variable {r : Reading} {tab group inner : String} {e : Element} {entry : Entry}

theorem firstTab?_outline {children : List Element} (h : isTab (outline entry children) = true) :
    firstTab? (outline entry children) = some (outline entry children) := by
  have hhead : (outline entry children).descendants =
      outline entry children :: Element.descendantsOfAll children := rfl
  have hname : (outline entry children).name = "outline" := rfl
  rw [firstTab?, outlines, hhead, List.filter_cons_of_pos (by simp [hname]),
    List.find?_cons_of_pos h]

theorem groupsOf_outline_one (hentry : entryOf? e = some entry) (outer : Entry) :
    groupsOf (outline outer [e]) = if entry.kind = "group" then [(e, entry.path)] else [] := by
  have hchildren : (outline outer [e]).children = [e] := rfl
  by_cases hkind : entry.kind = "group" <;> simp [groupsOf, hchildren, hentry, hkind]

theorem itemsOf_outline_one (hentry : entryOf? e = some entry) (outer : Entry) :
    itemsOf (outline outer [e]) = if entry.kind = "group" then [] else [(e, entry)] := by
  have hchildren : (outline outer [e]).children = [e] := rfl
  by_cases hkind : entry.kind = "group" <;> simp [itemsOf, hchildren, hentry, hkind]

theorem pagesOf_inGroup_eq (r : Reading) (tab group : String) (e : Element) :
    pagesOf r (inGroup tab group e) =
      (outerGroup r (outline ⟨"group", group⟩ [e]) group).allPages := by
  have htab : isTab (inGroup tab group e) = true := by
    rw [isTab, kindOf?, inGroup, entryOf?_outline (by simp)]
    rfl
  have hgroup : entryOf? (outline ⟨"group", group⟩ [e]) = some ⟨"group", group⟩ :=
    entryOf?_outline (by simp) [e]
  rw [inGroup] at htab ⊢
  rw [pagesOf, readTab?_eq, firstTab?_outline htab, Option.map_some, Option.map_some,
    Option.getD_some, pages_tabOf, groupsOf_outline_one hgroup, if_pos rfl, List.flatMap_singleton]

theorem pagesOf_inGroup (hentry : entryOf? e = some entry) (hkind : entry.kind ≠ "group") :
    pagesOf r (inGroup tab group e) = outerPages r [group] e entry := by
  rw [pagesOf_inGroup_eq, allPages_outerGroup, groupsOf_outline_one hentry, if_neg hkind,
    itemsOf_outline_one hentry, if_neg hkind, List.flatMap_singleton, List.flatMap_nil,
    List.append_nil]

theorem pagesOf_inSubgroup (hentry : entryOf? e = some entry) (hkind : entry.kind ≠ "group") :
    pagesOf r (inSubgroup tab group inner e) = [innerPage [group, inner] e entry] := by
  have hgroup : entryOf? (outline ⟨"group", inner⟩ [e]) = some ⟨"group", inner⟩ :=
    entryOf?_outline (by simp) [e]
  rw [inSubgroup, pagesOf_inGroup_eq, allPages_outerGroup, groupsOf_outline_one hgroup, if_pos rfl,
    itemsOf_outline_one hgroup, if_pos rfl, List.flatMap_singleton, List.flatMap_nil,
    List.nil_append, allPages_innerGroup, itemsOf_outline_one hentry, if_neg hkind,
    List.map_singleton]

end Documents

section Agreement

variable {e : Element} {groups groups' : List String} {path : String}

theorem innerPage_class (groups : List String) (e : Element) (path : String) :
    [innerPage groups e ⟨"class", path⟩] =
      outerPages .withColumnFunctions groups e ⟨"class", path⟩ := by
  simp [innerPage, outerPages, pageKind]

theorem outerPages_module (groups : List String) (e : Element) (path : String) :
    outerPages .withColumnFunctions groups e ⟨"module", path⟩ =
      ⟨path, groups, "module", some ((listedFunctions .withColumnFunctions e).map Entry.name),
        some (.ofEntries
          ((listedFunctions .withColumnFunctions e).map fun c => (c.name, c.kind)))⟩ ::
        classPages groups e := by
  simp [outerPages, pageKind]

theorem innerPage_module (groups : List String) (e : Element) (path : String) :
    innerPage groups e ⟨"module", path⟩ =
      ⟨path, groups, "module", some (childNames e), none⟩ := by
  simp [innerPage, pageKind]

/-- Whether an outline has functions directly below it and nothing else. -/
def ListsFunctions (e : Element) : Prop :=
  ∀ c ∈ childEntries e, c.kind ∈ Reading.functionKinds .withColumnFunctions

theorem listedFunctions_eq_iff :
    (listedFunctions .withColumnFunctions e).map Entry.name = childNames e ↔ ListsFunctions e := by
  rw [listedFunctions, childNames]
  constructor
  · intro h
    -- a filter that keeps the number of entries keeps them all
    have hlength := congrArg List.length h
    rw [List.length_map, List.length_map, List.length_filter_eq_length_iff] at hlength
    exact fun c hc => List.contains_iff_mem.mp (hlength c hc)
  · intro h
    rw [List.filter_eq_self.mpr fun c hc => List.contains_iff_mem.mpr (h c hc)]

theorem classPages_eq_nil (h : ListsFunctions e) (groups : List String) :
    classPages groups e = [] := by
  rw [classPages, List.filterMap_eq_nil_iff]
  intro c hc
  split
  · rename_i path hentry
    have hkind := h _ (List.mem_filterMap.mpr ⟨c, hc, hentry⟩)
    simp [Reading.functionKinds] at hkind
  · rfl

/-- The pages of a module outline in a group are that of the same outline further down, but for
the kinds of names, if it has functions only. -/
theorem outerPages_module_eq_iff (groups groups' : List String) (e : Element) (path : String) :
    ((outerPages .withColumnFunctions groups e ⟨"module", path⟩).map PageItem.ungrouped).map
          PageItem.untyped =
        ([innerPage groups' e ⟨"module", path⟩].map PageItem.ungrouped).map PageItem.untyped ↔
      ListsFunctions e := by
  rw [outerPages_module, innerPage_module, ← listedFunctions_eq_iff]
  constructor
  · intro h
    have hhead := congrArg List.head? h
    simpa [PageItem.ungrouped, PageItem.untyped] using hhead
  · intro h
    rw [classPages_eq_nil (listedFunctions_eq_iff.mp h), h]
    rfl

end Agreement

/-- A class outline has the same page in a group and in a group inside of it. A module outline
never has: inside of a group its functions are not told apart, and only if it has nothing but
functions below it are its pages the same otherwise. -/
theorem levels_agree_iff (tab group inner : String) (e : Element) (entry : Entry)
    (hentry : entryOf? e = some entry) (hkind : entry.kind = "module" ∨ entry.kind = "class") :
    let outerItems := (pagesOf .withColumnFunctions (inGroup tab group e)).map PageItem.ungrouped
    let innerItems :=
      (pagesOf .withColumnFunctions (inSubgroup tab group inner e)).map PageItem.ungrouped
    (outerItems = innerItems ↔ entry.kind = "class") ∧
      (outerItems.map PageItem.untyped = innerItems.map PageItem.untyped ↔
        entry.kind = "class" ∨ ListsFunctions e) := by
  obtain ⟨kind, path⟩ := entry
  have hitem : kind ≠ "group" := by rcases hkind with rfl | rfl <;> decide
  dsimp only
  rw [pagesOf_inGroup hentry hitem, pagesOf_inSubgroup hentry hitem]
  rcases hkind with rfl | rfl
  · refine ⟨⟨fun h => ?_, by simp⟩, ?_⟩
    -- the first pages already differ: only one of them has kinds of names
    · rw [outerPages_module, innerPage_module] at h
      have hhead := congrArg List.head? h
      simp [PageItem.ungrouped] at hhead
    · rw [outerPages_module_eq_iff]
      simp
  · have hsame : (outerPages .withColumnFunctions [group] e ⟨"class", path⟩).map
          PageItem.ungrouped =
        [innerPage [group, inner] e ⟨"class", path⟩].map PageItem.ungrouped := by
      rw [← innerPage_class]
      rfl
    rw [hsame]
    simp

def mixedModule : Element :=
  outline ⟨"module", "m"⟩
    [outline ⟨"class", "m.C"⟩ [outline ⟨"method", "m.C.f"⟩ []], outline ⟨"udf", "m.g"⟩ []]

theorem levels_agree_iff_mixedModule :
    entryOf? mixedModule = some ⟨"module", "m"⟩ ∧
      (pagesOf .withColumnFunctions (inGroup "T" "A" mixedModule)).map PageItem.ungrouped ≠
        (pagesOf .withColumnFunctions (inSubgroup "T" "A" "B" mixedModule)).map
          PageItem.ungrouped := by
  have hentry : entryOf? mixedModule = some ⟨"module", "m"⟩ := entryOf?_outline (by decide) _
  have hlevels := levels_agree_iff "T" "A" "B" mixedModule ⟨"module", "m"⟩ hentry (.inl rfl)
  exact ⟨hentry, fun h => absurd (hlevels.1.mp h) (by decide)⟩

/-- The class has a page in the group and none in the group inside of it. -/
theorem class_without_page_in_subgroup :
    pagesOf .withColumnFunctions (inGroup "T" "A" mixedModule) =
        [⟨"m", ["A"], "module", some ["g"], some [("g", "udf")]⟩,
          ⟨"m.C", ["A"], "class", some ["f"], none⟩] ∧
      pagesOf .withColumnFunctions (inSubgroup "T" "A" "B" mixedModule) =
        [⟨"m", ["A", "B"], "module", some ["C", "g"], none⟩] := by
  decide +kernel

end DocSite.Outline
