import DocSite.Api.World
import DocSite.Outline.Entry
import DocSite.Proofs.Fields
import DocSite.Proofs.Outline.Levels

namespace DocSite

namespace Outline

open Xml

variable {root tab e : Element} {path : String}

def lists (path : String) (e : Element) : Bool :=
  entryOf? e = some ⟨"module", path⟩ || entryOf? e = some ⟨"class", path⟩

/-- The outline that counts for the path of a module or class. -/
def lastListing? (root : Element) (path : String) : Option Element :=
  ((outlines root).filter (lists path)).getLast?

def listedItems (e : Element) : List Coverage.Item :=
  (childEntries e).map fun c => ⟨c.kind, c.name⟩

theorem get?_coverage (root : Element) (path : String) :
    (coverage root).get? path = (lastListing? root path).map listedItems := by
  -- the entries of one path, in order, are the outlines of that path
  have hentries : ((outlines root).filterMap fun e => (entryOf? e).bind fun entry =>
        if entry.kind = "module" || entry.kind = "class" then some (entry.path, listedItems e)
        else none).filter (fun x => x.1 = path) =
      ((outlines root).filter (lists path)).map fun e => (path, listedItems e) := by
    rw [List.filter_filterMap, ← List.filterMap_eq_map, List.filterMap_filter]
    congr 1
    funext e
    rw [lists]
    rcases entryOf? e with _ | ⟨kind, p⟩
    · rfl
    · by_cases hmodule : kind = "module" <;> by_cases hclass : kind = "class" <;>
        by_cases hp : p = path <;> simp [hmodule, hclass, hp, Option.filter]
  have hcoverage : coverage root = OrderedMap.ofEntries ((outlines root).filterMap fun e =>
      (entryOf? e).bind fun entry =>
        if entry.kind = "module" || entry.kind = "class" then some (entry.path, listedItems e)
        else none) := rfl
  rw [hcoverage, OrderedMap.get?_ofEntries, OrderedMap.lastValue?, hentries, List.getLast?_map,
    Option.map_map, lastListing?]
  rfl

/-- The places below a tab where an outline has a page of its own. -/
inductive Place
  | inGroup
  | inSubgroup
  | inModule

def IsChild (e : Element) (kind : String) (c : Element) : Prop :=
  c ∈ e.children ∧ kindOf? c = some kind

inductive StandsAt (tab : Element) : Place → Element → Prop
  | inGroup {g c : Element} {kind : String} (hg : IsChild tab "group" g) (hc : IsChild g kind c)
      (hkind : kind = "module" ∨ kind = "class") : StandsAt tab .inGroup c
  | inSubgroup {g h c : Element} {kind : String} (hg : IsChild tab "group" g)
      (hh : IsChild g "group" h) (hc : IsChild h kind c)
      (hkind : kind = "module" ∨ kind = "class") : StandsAt tab .inSubgroup c
  | inModule {g m c : Element} (hg : IsChild tab "group" g) (hm : IsChild g "module" m)
      (hc : IsChild m "class" c) : StandsAt tab .inModule c

section Pages

variable {r : Reading} {g h c m : Element} {kind : String} {p : PageItem}

theorem IsChild.group (hg : IsChild e "group" g) : ∃ name, (g, name) ∈ groupsOf e := by
  obtain ⟨name, hentry⟩ := kindOf?_eq_some.mp hg.2
  exact ⟨name, mem_groupsOf.mpr ⟨hg.1, hentry⟩⟩

theorem IsChild.of_mem_groupsOf {name : String} (hg : (g, name) ∈ groupsOf e) :
    IsChild e "group" g :=
  ⟨(mem_groupsOf.mp hg).1, kindOf?_eq_some.mpr ⟨name, (mem_groupsOf.mp hg).2⟩⟩

theorem IsChild.item (hc : IsChild g kind c) (hkind : kind = "module" ∨ kind = "class") :
    ∃ path, (c, ⟨kind, path⟩) ∈ itemsOf g := by
  obtain ⟨path, hentry⟩ := kindOf?_eq_some.mp hc.2
  refine ⟨path, mem_itemsOf.mpr ⟨hc.1, hentry, ?_⟩⟩
  rcases hkind with rfl | rfl <;> simp

theorem mem_pagesOf_of_group (htab : firstTab? root = some tab) {name : String}
    (hg : (g, name) ∈ groupsOf tab) (hp : p ∈ (outerGroup r g name).allPages) :
    p ∈ pagesOf r root := by
  rw [pagesOf, readTab?_eq, htab, Option.map_some, Option.map_some, Option.getD_some, pages_tabOf]
  exact List.mem_flatMap.mpr ⟨_, hg, hp⟩

theorem mem_pagesOf_of_item (htab : firstTab? root = some tab) {name : String} {entry : Entry}
    (hg : (g, name) ∈ groupsOf tab) (hc : (c, entry) ∈ itemsOf g)
    (hp : p ∈ outerPages r [name] c entry) : p ∈ pagesOf r root := by
  refine mem_pagesOf_of_group htab hg ?_
  rw [allPages_outerGroup]
  exact List.mem_append_left _ (List.mem_flatMap.mpr ⟨_, hc, hp⟩)

theorem mem_pagesOf_of_subgroup (htab : firstTab? root = some tab) {name inner : String}
    {entry : Entry} (hg : (g, name) ∈ groupsOf tab) (hh : (h, inner) ∈ groupsOf g)
    (hc : (c, entry) ∈ itemsOf h) : innerPage [name, inner] c entry ∈ pagesOf r root := by
  refine mem_pagesOf_of_group htab hg ?_
  rw [allPages_outerGroup]
  refine List.mem_append_right _ (List.mem_flatMap.mpr ⟨_, hh, ?_⟩)
  rw [allPages_innerGroup]
  exact List.mem_map.mpr ⟨_, hc, rfl⟩

theorem mem_classPages (hc : c ∈ m.children) (hentry : entryOf? c = some ⟨"class", path⟩)
    (groups : List String) :
    ⟨path, groups, "class", some (childNames c), none⟩ ∈ classPages groups m :=
  List.mem_filterMap.mpr ⟨c, hc, by simp [hentry]⟩

theorem exists_class_of_mem_classPages {groups : List String} (hp : p ∈ classPages groups m) :
    ∃ c, IsChild m "class" c ∧ entryOf? c = some ⟨p.kind, p.path⟩ := by
  obtain ⟨c, hc, hpage⟩ := List.mem_filterMap.mp hp
  split at hpage
  · rename_i path hentry
    cases hpage
    exact ⟨c, ⟨hc, kindOf?_eq_some.mpr ⟨path, hentry⟩⟩, hentry⟩
  · cases hpage

theorem mem_outerPages_of_mem_classPages {groups : List String}
    (hp : p ∈ classPages groups m) :
    p ∈ outerPages r groups m ⟨"module", path⟩ := by
  simp [outerPages, pageKind, hp]

/-- The page of a module or class that comes of an item of a group is the item's own or that of a
class below it. -/
theorem eq_or_mem_classPages {groups : List String} {entry : Entry}
    (hp : p ∈ outerPages r groups e entry) (hkind : p.kind = "module" ∨ p.kind = "class") :
    entry = ⟨p.kind, p.path⟩ ∨ entry.kind = "module" ∧ p ∈ classPages groups e := by
  have hown (hpage : p.kind = pageKind entry.kind) (hpath : p.path = entry.path) :
      entry = ⟨p.kind, p.path⟩ := by
    rw [hpath, ← (pageKind_eq_iff hkind).mp hpage.symm]
  unfold outerPages at hp
  dsimp only at hp
  split at hp
  · rename_i hmodule
    rcases List.mem_cons.mp hp with rfl | hclass
    · exact .inl (hown rfl rfl)
    · exact .inr ⟨(pageKind_eq_iff (.inl rfl)).mp hmodule, hclass⟩
  · refine .inl ?_
    split at hp <;> cases List.mem_singleton.mp hp <;> exact hown rfl rfl

/-- Every page of a module or class comes of an outline at one of the places. -/
theorem standsAt_of_mem_pagesOf (htab : firstTab? root = some tab) (hp : p ∈ pagesOf r root)
    (hkind : p.kind = "module" ∨ p.kind = "class") :
    ∃ place e, StandsAt tab place e ∧ entryOf? e = some ⟨p.kind, p.path⟩ := by
  rw [pagesOf, readTab?_eq, htab, Option.map_some, Option.map_some, Option.getD_some,
    pages_tabOf] at hp
  obtain ⟨⟨g, name⟩, hg, hp⟩ := List.mem_flatMap.mp hp
  have hgroup : IsChild tab "group" g := .of_mem_groupsOf hg
  rw [allPages_outerGroup] at hp
  rcases List.mem_append.mp hp with hp | hp
  · obtain ⟨⟨c, entry⟩, hc, hp⟩ := List.mem_flatMap.mp hp
    obtain ⟨hchild, hentry, -⟩ := mem_itemsOf.mp hc
    rcases eq_or_mem_classPages hp hkind with rfl | ⟨hmodule, hclass⟩
    · have hitem : IsChild g p.kind c := ⟨hchild, kindOf?_eq_some.mpr ⟨_, hentry⟩⟩
      exact ⟨.inGroup, c, .inGroup hgroup hitem hkind, hentry⟩
    · obtain ⟨d, hd, hdentry⟩ := exists_class_of_mem_classPages hclass
      have hm : IsChild g "module" c := ⟨hchild, kindOf?_eq_some.mpr ⟨entry.path, hmodule ▸ hentry⟩⟩
      exact ⟨.inModule, d, .inModule hgroup hm hd, hdentry⟩
  · obtain ⟨⟨h, inner⟩, hh, hp⟩ := List.mem_flatMap.mp hp
    rw [allPages_innerGroup] at hp
    obtain ⟨⟨c, entry⟩, hc, rfl⟩ := List.mem_map.mp hp
    obtain ⟨hchild, hentry, -⟩ := mem_itemsOf.mp hc
    have hown : (innerPage [name, inner] c entry).kind = entry.kind :=
      ((pageKind_eq_iff hkind).mp rfl).symm
    rw [hown] at hkind ⊢
    have hitem : IsChild h entry.kind c := ⟨hchild, kindOf?_eq_some.mpr ⟨_, hentry⟩⟩
    exact ⟨.inSubgroup, c, .inSubgroup hgroup (.of_mem_groupsOf hh) hitem hkind, hentry⟩

end Pages

/-- Whether the name of an item is listed on a page, or is that of a class with a page. -/
def Documented (pages : List PageItem) (page : PageItem) (i : Coverage.Item) : Prop :=
  i.name ∈ page.children?.getD [] ∨ ∃ q ∈ pages, q.kind = "class" ∧ Api.lastPart q.path = i.name

instance (pages : List PageItem) (page : PageItem) (i : Coverage.Item) :
    Decidable (Documented pages page i) :=
  inferInstanceAs (Decidable (_ ∨ _))

section Items

variable {pages : List PageItem} {page : PageItem} {i : Coverage.Item}

theorem documented_of_childNames (hchildren : page.children? = some (childNames e))
    (hi : i ∈ listedItems e) : Documented pages page i := by
  obtain ⟨c, hc, rfl⟩ := List.mem_map.mp hi
  refine .inl ?_
  rw [hchildren]
  exact List.mem_map.mpr ⟨c, hc, rfl⟩

/-- A module in a group lists its functions, and its classes have pages beside its own. -/
theorem documented_of_module
    (hchildren : page.children? = some ((listedFunctions .withColumnFunctions e).map Entry.name))
    {groups : List String} (hclasses : ∀ p ∈ classPages groups e, p ∈ pages)
    (hi : i ∈ listedItems e) (hkind : i.kind ∈ ["func", "udf", "class"]) :
    Documented pages page i := by
  obtain ⟨c, hc, rfl⟩ := List.mem_map.mp hi
  by_cases hclass : c.kind = "class"
  · obtain ⟨x, hx, hentry⟩ := List.mem_filterMap.mp hc
    obtain ⟨kind, path⟩ := c
    cases hclass
    exact .inr ⟨_, hclasses _ (mem_classPages hx hentry groups), rfl, rfl⟩
  · have hfunction : c.kind ∈ Reading.functionKinds .withColumnFunctions := by
      simpa [hclass, Reading.functionKinds] using hkind
    refine .inl ?_
    rw [hchildren]
    exact List.mem_map.mpr
      ⟨c, List.mem_filter.mpr ⟨hc, List.contains_iff_mem.mpr hfunction⟩, rfl⟩

end Items

section Places

variable {place : Place} {kind : String}

/-- Wherever an outline has a page of its own, the page lists all that is below the outline, unless
it is that of a module in a group. -/
theorem exists_page_with_childNames (r : Reading) (htab : firstTab? root = some tab)
    (hplace : StandsAt tab place e) (hentry : entryOf? e = some ⟨kind, path⟩)
    (hother : ¬ (place = .inGroup ∧ kind = "module")) :
    ∃ page ∈ pagesOf r root, (page.kind = kind ∧ page.path = path) ∧
      page.children? = some (childNames e) := by
  cases hplace with
  | inGroup hg hc hkind =>
    obtain ⟨name, hg⟩ := hg.group
    obtain ⟨path', hc⟩ := hc.item hkind
    obtain ⟨-, hitem, -⟩ := mem_itemsOf.mp hc
    cases hentry.symm.trans hitem
    obtain rfl : kind = "class" := hkind.resolve_left fun h => hother ⟨rfl, h⟩
    exact ⟨_, mem_pagesOf_of_item htab hg hc (List.mem_singleton.mpr rfl), ⟨rfl, rfl⟩, rfl⟩
  | inSubgroup hg hh hc hkind =>
    obtain ⟨name, hg⟩ := hg.group
    obtain ⟨inner, hh⟩ := hh.group
    obtain ⟨path', hc⟩ := hc.item hkind
    obtain ⟨-, hitem, -⟩ := mem_itemsOf.mp hc
    cases hentry.symm.trans hitem
    refine ⟨_, mem_pagesOf_of_subgroup htab hg hh hc, ⟨(pageKind_eq_iff hkind).mpr rfl, rfl⟩, ?_⟩
    rcases hkind with rfl | rfl <;> rfl
  | inModule hg hm hc =>
    obtain ⟨name, hg⟩ := hg.group
    obtain ⟨outer, hm⟩ := hm.item (.inl rfl)
    obtain ⟨path', hclass⟩ := kindOf?_eq_some.mp hc.2
    cases hentry.symm.trans hclass
    have hpage := mem_classPages hc.1 hclass [name]
    exact ⟨_, mem_pagesOf_of_item htab hg hm (mem_outerPages_of_mem_classPages hpage),
      ⟨rfl, rfl⟩, rfl⟩

/-- A module in a group has a page that lists its functions, and a page for each of its classes. -/
theorem exists_page_of_module (htab : firstTab? root = some tab)
    (hplace : StandsAt tab .inGroup e) (hentry : entryOf? e = some ⟨"module", path⟩) :
    ∃ page ∈ pagesOf .withColumnFunctions root, (page.kind = "module" ∧ page.path = path) ∧
      page.children? = some ((listedFunctions .withColumnFunctions e).map Entry.name) ∧
      ∃ groups, ∀ p ∈ classPages groups e, p ∈ pagesOf .withColumnFunctions root := by
  cases hplace with
  | inGroup hg hc hkind =>
    obtain ⟨name, hg⟩ := hg.group
    obtain ⟨path', hc⟩ := hc.item hkind
    obtain ⟨-, hitem, -⟩ := mem_itemsOf.mp hc
    cases hentry.symm.trans hitem
    refine ⟨_, mem_pagesOf_of_item htab hg hc (List.mem_cons_self ..), ⟨rfl, rfl⟩, rfl, [name],
      ?_⟩
    exact fun p hp => mem_pagesOf_of_item htab hg hc (mem_outerPages_of_mem_classPages hp)

theorem lists_eq_true :
    lists path e = true ↔ ∃ kind, entryOf? e = some ⟨kind, path⟩ ∧
      (kind = "module" ∨ kind = "class") := by
  rw [lists, Bool.or_eq_true, decide_eq_true_eq, decide_eq_true_eq]
  constructor
  · rintro (h | h)
    · exact ⟨_, h, .inl rfl⟩
    · exact ⟨_, h, .inr rfl⟩
  · rintro ⟨kind, h, rfl | rfl⟩
    · exact .inl h
    · exact .inr h

theorem exists_page_iff (htab : firstTab? root = some tab) (path : String) :
    (∃ page ∈ pagesOf .withColumnFunctions root, page.path = path ∧
        (page.kind = "module" ∨ page.kind = "class")) ↔
      ∃ place e, StandsAt tab place e ∧ lists path e = true := by
  constructor
  · rintro ⟨page, hpage, rfl, hkind⟩
    obtain ⟨place, e, hplace, hentry⟩ := standsAt_of_mem_pagesOf htab hpage hkind
    exact ⟨place, e, hplace, lists_eq_true.mpr ⟨_, hentry, hkind⟩⟩
  · rintro ⟨place, e, hplace, hlists⟩
    obtain ⟨kind, hentry, hkind⟩ := lists_eq_true.mp hlists
    by_cases hmodule : place = .inGroup ∧ kind = "module"
    · obtain ⟨rfl, rfl⟩ := hmodule
      obtain ⟨page, hpage, ⟨hown, hpath⟩, -⟩ := exists_page_of_module htab hplace hentry
      exact ⟨page, hpage, hpath, .inl hown⟩
    · obtain ⟨page, hpage, ⟨hown, hpath⟩, -⟩ :=
        exists_page_with_childNames .withColumnFunctions htab hplace hentry hmodule
      exact ⟨page, hpage, hpath, hown ▸ hkind⟩

end Places

/-- A path that is taken to be documented has a page of a module or class if and only if an outline
of it stands in a group of the tab, in a group inside of one, or, for a class, in a module of a
group of the tab. Where the outline that counts does, the functions, classes and methods that it
lists are documented with the page, except that a module in a group of the tab has no methods. -/
theorem covered_items_documented (root tab : Element) (path : String)
    (items : List Coverage.Item) (hitems : (coverage root).get? path = some items)
    (htab : firstTab? root = some tab) :
    ((∃ page ∈ pagesOf .withColumnFunctions root, page.path = path ∧
        (page.kind = "module" ∨ page.kind = "class")) ↔
      ∃ place e, StandsAt tab place e ∧ lists path e = true) ∧
    ∀ place e, lastListing? root path = some e → StandsAt tab place e →
      ∃ page ∈ pagesOf .withColumnFunctions root, page.path = path ∧
        ∀ i ∈ items, i.kind ∈ ["func", "udf", "class", "method"] →
          ¬ (i.kind = "method" ∧ place = .inGroup ∧ kindOf? e = some "module") →
          Documented (pagesOf .withColumnFunctions root) page i := by
  refine ⟨exists_page_iff htab path, fun place e hlast hplace => ?_⟩
  rw [get?_coverage, hlast, Option.map_some, Option.some.injEq] at hitems
  subst hitems
  obtain ⟨kind, hentry, -⟩ :=
    lists_eq_true.mp (List.mem_filter.mp (List.mem_of_getLast? hlast)).2
  -- only the page of a module in a group leaves out some of what is below the outline
  by_cases hmodule : place = .inGroup ∧ kind = "module"
  · obtain ⟨rfl, rfl⟩ := hmodule
    obtain ⟨page, hpage, ⟨-, hpath⟩, hchildren, groups, hclasses⟩ :=
      exists_page_of_module htab hplace hentry
    refine ⟨page, hpage, hpath, fun i hi hkinds hmethod => ?_⟩
    have hnot : i.kind ≠ "method" := fun h =>
      hmethod ⟨h, rfl, kindOf?_eq_some.mpr ⟨path, hentry⟩⟩
    exact documented_of_module hchildren hclasses hi (by simpa [hnot] using hkinds)
  · obtain ⟨page, hpage, ⟨-, hpath⟩, hchildren⟩ :=
      exists_page_with_childNames .withColumnFunctions htab hplace hentry hmodule
    exact ⟨page, hpage, hpath, fun i hi _ _ => documented_of_childNames hchildren hi⟩

section Samples

def shelvedModule : Element :=
  outline ⟨"module", "m"⟩
    [outline ⟨"func", "m.f"⟩ [], outline ⟨"class", "m.C"⟩ [outline ⟨"method", "m.C.g"⟩ []]]

def shelvedGroup : Element := outline ⟨"group", "A"⟩ [shelvedModule]

def shelvedTab : Element := outline ⟨"tab", "T"⟩ [shelvedGroup]

theorem covered_items_documented_shelved :
    (coverage shelvedTab).get? "m" = some [⟨"func", "f"⟩, ⟨"class", "C"⟩] ∧
      ∃ page ∈ pagesOf .withColumnFunctions shelvedTab, page.path = "m" ∧
        Documented (pagesOf .withColumnFunctions shelvedTab) page ⟨"func", "f"⟩ ∧
        Documented (pagesOf .withColumnFunctions shelvedTab) page ⟨"class", "C"⟩ := by
  have hitems : (coverage shelvedTab).get? "m" = some [⟨"func", "f"⟩, ⟨"class", "C"⟩] := by
    decide +kernel
  have hlast : lastListing? shelvedTab "m" = some shelvedModule := by rfl
  have htab : firstTab? shelvedTab = some shelvedTab := by rfl
  have hgroup : IsChild shelvedTab "group" shelvedGroup :=
    ⟨List.mem_singleton.mpr rfl, by decide +kernel⟩
  have hmodule : IsChild shelvedGroup "module" shelvedModule :=
    ⟨List.mem_singleton.mpr rfl, by decide +kernel⟩
  obtain ⟨page, hpage, hpath, hall⟩ := (covered_items_documented shelvedTab shelvedTab "m" _ hitems
    htab).2 .inGroup shelvedModule hlast (.inGroup hgroup hmodule (.inl rfl))
  exact ⟨hitems, page, hpage, hpath, hall ⟨"func", "f"⟩ (by simp) (by decide) (by simp),
    hall ⟨"class", "C"⟩ (by simp) (by decide) (by simp)⟩

def classModule : Element :=
  outline ⟨"module", "n"⟩ [outline ⟨"class", "n.E"⟩ [outline ⟨"func", "f"⟩ []]]

def groupedOnce : Element := outline ⟨"tab", "T"⟩ [outline ⟨"group", "A"⟩ [classModule]]

def groupedTwice : Element :=
  outline ⟨"tab", "T"⟩ [outline ⟨"group", "A"⟩ [outline ⟨"group", "B"⟩ [classModule]]]

/-- A class of a module is taken to be documented at both levels. It has a page only where the
module stands in a group of the tab. -/
theorem listed_class_undocumented :
    (∀ root ∈ [groupedOnce, groupedTwice], (coverage root).get? "n.E" = some [⟨"func", "f"⟩]) ∧
      (∃ p ∈ pagesOf .withColumnFunctions groupedOnce,
        p.path = "n.E" ∧ p.children? = some ["f"]) ∧
      ∀ p ∈ pagesOf .withColumnFunctions groupedTwice, p.path ≠ "n.E" := by
  decide +kernel

end Samples

end Outline

end DocSite
