import DocSite.Navigation.Build
import DocSite.Navigation.Check
import DocSite.Proofs.Navigation.Pages

namespace DocSite

namespace Navigation

open Outline

/-- What is made for an item of an outline: a page, or several. -/
inductive Made
  | page (path : String)
  | pages (paths : List String)

namespace Made

def paths : Made → List String
  | .page path => [path]
  | .pages paths => paths

def json : Made → Json
  | .page path => .str path
  | .pages paths => .ofTexts paths

theorem entriesOf_json (m : Made) : entriesOf m.json = m.paths.map .str := by
  cases m <;> rfl

end Made

variable {made : OrderedMap Made}

/-- The paths of what was made for a list of items, in order. -/
def pathsOf (made : OrderedMap Made) (pages : List PageItem) : List String :=
  pages.flatMap fun p => ((made.get? p.path).map Made.paths).getD []

theorem pathsOf_append (made : OrderedMap Made) (ps qs : List PageItem) :
    pathsOf made (ps ++ qs) = pathsOf made ps ++ pathsOf made qs :=
  List.flatMap_append

theorem pageEntries_eq (made : OrderedMap Made) (pages : List PageItem) :
    pageEntries (made.mapValues Made.json) pages = (pathsOf made pages).map .str := by
  rw [pageEntries, pathsOf, List.map_flatMap]
  congr 1
  funext p
  rw [OrderedMap.get?_mapValues]
  cases OrderedMap.get? p.path made with
  | none => rfl
  | some m => exact m.entriesOf_json

theorem leavesInEach_append (vs ws : List Json) :
    leavesInEach (vs ++ ws) = leavesInEach vs ++ leavesInEach ws := by
  induction vs with
  | nil => rfl
  | cons v vs ih => simp [leavesInEach, ih]

theorem leavesInEach_strings (paths : List String) :
    leavesInEach (paths.map .str) = paths.map .str := by
  induction paths with
  | nil => rfl
  | cons p ps ih => simp [leavesInEach, leavesOfPage, ih]

mutual

theorem leavesOfPage_buildGroup (made : OrderedMap Made) : ∀ g : Group,
    leavesOfPage (buildGroup (made.mapValues Made.json) g) =
      (pathsOf made g.allPages).map .str
  | .node name pages subgroups => by
    rw [buildGroup, Group.allPages, pathsOf_append, List.map_append]
    simp [leavesOfPage, leavesInFields, leavesInList, leavesInEach_append, pageEntries_eq,
      leavesInEach_strings, leavesInEach_buildGroups made subgroups]

theorem leavesInEach_buildGroups (made : OrderedMap Made) : ∀ gs : List Group,
    leavesInEach (buildGroups (made.mapValues Made.json) gs) =
      (pathsOf made (Group.allPagesOf gs)).map .str
  | [] => rfl
  | g :: gs => by
    rw [buildGroups, leavesInEach, leavesOfPage_buildGroup made g,
      leavesInEach_buildGroups made gs, Group.allPagesOf, pathsOf_append, List.map_append]

end

/-- A group under its name, with the paths of its own pages and the groups inside of it. -/
inductive Chapter
  | node (name : String) (paths : List String) (inner : List Chapter)

mutual

/-- A group of an outline, with what was made for its pages. -/
def Chapter.ofGroup (made : OrderedMap Made) : Group → Chapter
  | .node name pages subgroups => .node name (pathsOf made pages) (ofGroups made subgroups)

def Chapter.ofGroups (made : OrderedMap Made) : List Group → List Chapter
  | [] => []
  | g :: gs => ofGroup made g :: ofGroups made gs

end

mutual

/-- The groups among the pages of a navigation; what is no object is none. -/
def chaptersInEach : List Json → List Chapter
  | [] => []
  | .obj fields :: rest =>
    .node ((Json.obj fields).textAt "group") ((Json.obj fields).field "pages").strings
      (chaptersInFields fields) :: chaptersInEach rest
  | _ :: rest => chaptersInEach rest

def chaptersInFields : List (String × Json) → List Chapter
  | [] => []
  | (k, v) :: rest => if k = "pages" then chaptersInList v else chaptersInFields rest

def chaptersInList : Json → List Chapter
  | .arr pages => chaptersInEach pages
  | _ => []

end

theorem chaptersInEach_strings (paths : List String) (rest : List Json) :
    chaptersInEach (paths.map .str ++ rest) = chaptersInEach rest := by
  induction paths with
  | nil => rfl
  | cons p ps ih => simpa [chaptersInEach] using ih

/-- The groups inside of a group are no pages of its own. -/
theorem filterMap_str?_buildGroups (generated : OrderedMap Json) (gs : List Group) :
    (buildGroups generated gs).filterMap Json.str? = [] := by
  induction gs with
  | nil => rfl
  | cons g gs ih =>
    obtain ⟨name, pages, subgroups⟩ := g
    simpa [buildGroups, buildGroup, Json.str?] using ih

theorem strings_pages (made : OrderedMap Made) (pages : List PageItem) (gs : List Group) :
    (Json.arr (pageEntries (made.mapValues Made.json) pages ++
      buildGroups (made.mapValues Made.json) gs)).strings = pathsOf made pages := by
  rw [pageEntries_eq, Json.strings, Json.items, List.filterMap_append,
    filterMap_str?_buildGroups, List.append_nil, List.filterMap_map]
  simp [Function.comp_def, Json.str?]

mutual

theorem chaptersInEach_buildGroup (made : OrderedMap Made) : ∀ (g : Group) (rest : List Json),
    chaptersInEach (buildGroup (made.mapValues Made.json) g :: rest) =
      .ofGroup made g :: chaptersInEach rest
  | .node name pages subgroups, rest => by
    have hname (v : Json) : (Json.obj [("group", .str name), ("pages", v)]).textAt "group" = name :=
      rfl
    have hpages (v : Json) : (Json.obj [("group", .str name), ("pages", v)]).field "pages" = v :=
      rfl
    have hinner (v : Json) : chaptersInFields [("group", .str name), ("pages", v)] =
        chaptersInList v := by
      simp [chaptersInFields]
    rw [buildGroup, chaptersInEach, hname, hpages, strings_pages, hinner, chaptersInList,
      pageEntries_eq, chaptersInEach_strings, chaptersInEach_buildGroups made subgroups,
      Chapter.ofGroup]

theorem chaptersInEach_buildGroups (made : OrderedMap Made) : ∀ gs : List Group,
    chaptersInEach (buildGroups (made.mapValues Made.json) gs) = Chapter.ofGroups made gs
  | [] => rfl
  | g :: gs => by
    rw [buildGroups, chaptersInEach_buildGroup made g, chaptersInEach_buildGroups made gs,
      Chapter.ofGroups]

end

/-- The leaves below all versions of a navigation. -/
def allLeaves (nav : Json) : List Json := (nav.field "dropdowns").items.flatMap leavesOf

/-- The groups of all versions of a navigation. -/
def allChapters (nav : Json) : List Chapter :=
  (nav.field "dropdowns").items.flatMap fun version => chaptersInEach (version.field "groups").items

/-- The navigation of a tab lists what was made for its pages, and nothing else, in the order of
the pages. Its groups are those of the tab, nested as they are there and each with its own pages,
inside of one group for all. -/
theorem build_lists_tab (version : String) (made : OrderedMap Made) (t : Tab) :
    allLeaves (build version (made.mapValues Made.json) t) =
        (pathsOf made t.pages).map .str ∧
      allChapters (build version (made.mapValues Made.json) t) =
        [.node "SDK Reference" [] (Chapter.ofGroups made t.groups)] := by
  constructor
  · have hleaves : allLeaves (build version (made.mapValues Made.json) t) =
        leavesInEach (buildGroups (made.mapValues Made.json) t.groups) ++ [] ++ [] := rfl
    rw [hleaves, List.append_nil, List.append_nil, leavesInEach_buildGroups, Tab.pages]
  · have hchapters : allChapters (build version (made.mapValues Made.json) t) =
        [.node "SDK Reference"
          (Json.arr (buildGroups (made.mapValues Made.json) t.groups)).strings
          (chaptersInEach (buildGroups (made.mapValues Made.json) t.groups))] := rfl
    rw [hchapters, Json.strings, Json.items, filterMap_str?_buildGroups,
      chaptersInEach_buildGroups]

section Repeats

/-- A path that was seen is told each time it comes, any other each time but the first. -/
theorem count_repeatsFrom (p : String) (seen paths : List String) :
    (repeatsFrom seen paths).count p =
      if p ∈ seen then paths.count p else paths.count p - 1 := by
  induction paths generalizing seen with
  | nil => simp [repeatsFrom]
  | cons q qs ih =>
    by_cases hq : q ∈ seen
    · by_cases hp : q = p
      · subst hp
        simp [repeatsFrom, hq, ih]
      · simp [repeatsFrom, hq, ih, hp]
    · by_cases hp : q = p
      · subst hp
        simp [repeatsFrom, hq, ih]
      · simp [repeatsFrom, hq, ih, hp, Ne.symm hp]

theorem count_repeats (p : String) (paths : List String) :
    (repeats paths).count p = paths.count p - 1 := by
  simp [repeats, count_repeatsFrom]

theorem pagesOfEach_append {vs ws : List Json} {ps qs : List String}
    (hvs : pagesOfEach vs = .ok ps) (hws : pagesOfEach ws = .ok qs) :
    pagesOfEach (vs ++ ws) = .ok (ps ++ qs) := by
  induction vs generalizing ps with
  | nil =>
    obtain rfl : [] = ps := Except.ok.inj hvs
    exact hws
  | cons v vs ih =>
    rw [pagesOfEach] at hvs
    obtain ⟨here, hhere, hvs⟩ := Attempt.bind_eq_ok.mp hvs
    obtain ⟨more, hmore, hps⟩ := Attempt.bind_eq_ok.mp hvs
    rw [List.cons_append, pagesOfEach, hhere, ← Except.ok.inj hps, List.append_assoc]
    exact Attempt.bind_eq_ok.mpr ⟨_, rfl, Attempt.bind_eq_ok.mpr ⟨_, ih hmore, rfl⟩⟩

theorem pagesOfEach_strings (paths : List String) :
    pagesOfEach (paths.map .str) = .ok paths := by
  induction paths with
  | nil => rfl
  | cons p ps ih =>
    rw [List.map_cons, pagesOfEach, ih]
    rfl

/-- A group of a navigation is asked for its pages only. -/
theorem pagesOfItem_group (name : String) (pages : List Json) :
    pagesOfItem (.obj [("group", .str name), ("pages", .arr pages)]) = pagesOfEach pages := by
  rw [pagesOfItem]
  simp only [pagesInFields, groupsInFields, pagesOfList]
  cases pagesOfEach pages <;> simp [bind, Except.bind, pure, Except.pure]

theorem pagesOfPage_group (name : String) (pages : List Json) :
    pagesOfPage (.obj [("group", .str name), ("pages", .arr pages)]) = pagesOfEach pages :=
  pagesOfItem_group name pages

mutual

theorem pagesOfPage_buildGroup (made : OrderedMap Made) : ∀ g : Group,
    pagesOfPage (buildGroup (made.mapValues Made.json) g) = .ok (pathsOf made g.allPages)
  | .node name pages subgroups => by
    rw [buildGroup, pagesOfPage_group, pageEntries_eq, Group.allPages, pathsOf_append]
    exact pagesOfEach_append (pagesOfEach_strings _) (pagesOfEach_buildGroups made subgroups)

theorem pagesOfEach_buildGroups (made : OrderedMap Made) : ∀ gs : List Group,
    pagesOfEach (buildGroups (made.mapValues Made.json) gs) =
      .ok (pathsOf made (Group.allPagesOf gs))
  | [] => rfl
  | g :: gs => by
    rw [buildGroups, pagesOfEach, pagesOfPage_buildGroup made g, pagesOfEach_buildGroups made gs,
      Group.allPagesOf, pathsOf_append]
    rfl

end

theorem pagesOfVersion_group {group : Json} {paths : List String}
    (h : pagesOfItem group = .ok paths) (label icon : Json) :
    pagesOfVersion (.obj [("dropdown", label), ("icon", icon), ("groups", .arr [group])]) =
      .ok paths := by
  simp [pagesOfVersion, Json.get, OrderedMap.get?, Json.isPresent, pagesOfItems, pagesOfEachItem, h,
    bind, Except.bind, pure, Except.pure]

theorem pagePaths_build (version : String) (made : OrderedMap Made) (t : Tab) :
    pagePaths (build version (made.mapValues Made.json) t) = .ok (pathsOf made t.pages) := by
  have hreference := (pagesOfItem_group "SDK Reference" _).trans
    (pagesOfEach_buildGroups made t.groups)
  have hversion := pagesOfVersion_group hreference (.str version)
    (.str (if version = latest then "rocket" else "archive"))
  simp [build, pagePaths, Json.get, OrderedMap.get?, Json.isPresent, Json.each, hversion, Tab.pages,
    bind, Except.bind, pure, Except.pure]

/-- What is amiss with the navigation of a tab can only be paths that are listed more than once. -/
theorem check_build (version : String) (made : OrderedMap Made) (t : Tab) :
    check (build version (made.mapValues Made.json) t) =
      .ok ((repeats (pathsOf made t.pages)).map ("Duplicate page path: " ++ ·)) := by
  have hpaths := pagePaths_build version made t
  unfold check
  rw [hpaths]
  simp [build, Json.has, OrderedMap.has, Json.get, OrderedMap.get?, Json.isPresent, bind,
    Except.bind, pure, Except.pure]

end Repeats

end Navigation

end DocSite
