import DocSite.Proofs.Fields
import DocSite.Proofs.Outline.Levels
import Mathlib.Data.List.Nodup

/-!
Which outlines the pages of a tab come from. An outline is known by the way to it from the tab, as
the numbers of the children to go down to. Each page has a way of its own.
-/

namespace DocSite.Outline

open Xml

section Numbers

variable {β : Type} {f : Element → Option β} {e c : Element} {n : Nat} {y : β}

/-- What a function finds in the children of an element, with their numbers. -/
def numbered (f : Element → Option β) (e : Element) : List (Nat × β) :=
  (List.range e.children.length).filterMap fun n => (e.children[n]?.bind f).map (n, ·)

theorem mem_numbered :
    (n, y) ∈ numbered f e ↔ ∃ c, e.children[n]? = some c ∧ f c = some y := by
  simp only [numbered, List.mem_filterMap, List.mem_range, Option.map_eq_some_iff,
    Option.bind_eq_some_iff, Prod.mk.injEq]
  constructor
  · rintro ⟨k, -, z, ⟨c, hc, hz⟩, rfl, rfl⟩
    exact ⟨c, hc, hz⟩
  · rintro ⟨c, hc, hy⟩
    exact ⟨n, (List.getElem?_eq_some_iff.mp hc).1, y, ⟨c, hc, hy⟩, rfl, rfl⟩

theorem filterMap_range_getElem? {α : Type} (f : α → Option β) (xs : List α) :
    (List.range xs.length).filterMap (fun n => xs[n]?.bind f) = xs.filterMap f := by
  induction xs with
  | nil => rfl
  | cons x xs ih =>
    rw [List.length_cons, List.range_succ_eq_map, List.filterMap_cons, List.filterMap_map,
      List.filterMap_cons]
    simp [ih]

theorem map_snd_numbered (f : Element → Option β) (e : Element) :
    (numbered f e).map Prod.snd = e.children.filterMap f := by
  rw [numbered, List.map_filterMap, ← filterMap_range_getElem? f]
  refine List.filterMap_congr fun n _ => ?_
  cases e.children[n]?.bind f <;> rfl

theorem map_fst_numbered (f : Element → Option β) (e : Element) :
    (numbered f e).map Prod.fst =
      (List.range e.children.length).filter fun n => (e.children[n]?.bind f).isSome := by
  rw [numbered, List.map_filterMap, ← List.filterMap_eq_filter]
  refine List.filterMap_congr fun n _ => ?_
  cases h : e.children[n]?.bind f <;> simp [Option.guard, h]

theorem nodup_map_fst_numbered (f : Element → Option β) (e : Element) :
    ((numbered f e).map Prod.fst).Nodup := by
  rw [map_fst_numbered]
  exact List.nodup_range.filter _

end Numbers

section Pages

/-- What lies below a tab through groups only: the way to it and the names of the groups. -/
inductive Reached (tab : Element) : List Nat → List String → Element → Prop
  | tab : Reached tab [] [] tab
  | group {way : List Nat} {names : List String} {e c : Element} {n : Nat} {name : String}
      (he : Reached tab way names e) (hc : e.children[n]? = some c)
      (hname : entryOf? c = some ⟨"group", name⟩) : Reached tab (way ++ [n]) (names ++ [name]) c

def entryAt? (e : Element) (n : Nat) : Option Entry := e.children[n]?.bind entryOf?

/-- The numbers of the children of some kinds. -/
def placesOf (kinds : List String) (e : Element) : List Nat :=
  (List.range e.children.length).filter fun n =>
    (entryAt? e n).any fun entry => kinds.contains entry.kind

def entriesAt (e : Element) (places : List Nat) : List Entry := places.filterMap (entryAt? e)

def functionEntries (e : Element) : List Entry := entriesAt e (placesOf ["func", "udf"] e)

/-- The page of an outline in groups. A module in a single group lists its functions and their
kinds, any other module or class the names of all that is below it. -/
def ownPage (groups : List String) (e : Element) (entry : Entry) : PageItem where
  path := entry.path
  groups := groups
  kind := if entry.kind = "page" then "func" else entry.kind
  children? :=
    if entry.kind = "module" ∧ groups.length = 1 then some ((functionEntries e).map Entry.name)
    else if entry.kind = "module" ∨ entry.kind = "class" then some (childNames e)
    else none
  kinds? :=
    if entry.kind = "module" ∧ groups.length = 1 then
      some (.ofEntries ((functionEntries e).map fun f => (f.name, f.kind)))
    else none

/-- The outlines that have a page, by their ways: those in one or two groups other than groups, and
the classes that a module in a single group lists. -/
inductive HasPage (tab : Element) : List Nat → PageItem → Prop
  | item {way : List Nat} {names : List String} {e c : Element} {n : Nat} {entry : Entry}
      (he : Reached tab way names e) (hdepth : names.length = 1 ∨ names.length = 2)
      (hc : e.children[n]? = some c) (hentry : entryOf? c = some entry)
      (hkind : entry.kind ≠ "group") : HasPage tab (way ++ [n]) (ownPage names c entry)
  | listed {way : List Nat} {name : String} {e m c : Element} {n k : Nat} {path own : String}
      (he : Reached tab way [name] e) (hm : e.children[n]? = some m)
      (hmodule : entryOf? m = some ⟨"module", own⟩) (hc : m.children[k]? = some c)
      (hentry : entryOf? c = some ⟨"class", path⟩) :
      HasPage tab (way ++ [n] ++ [k]) ⟨path, [name], "class", some (childNames c), none⟩

variable {tab e : Element} {way : List Nat} {names : List String}

theorem Reached.eq_tab (h : Reached tab way names e) (hnames : names = []) :
    way = [] ∧ e = tab := by
  cases h with
  | tab => exact ⟨rfl, rfl⟩
  | group => simp at hnames

theorem Reached.outer {name : String} (h : Reached tab way [name] e) :
    ∃ i, way = [i] ∧ tab.children[i]? = some e ∧ entryOf? e = some ⟨"group", name⟩ := by
  generalize hnames : [name] = names at h
  cases h with
  | tab => cases hnames
  | group he hc hname =>
    obtain ⟨hnil, hlast⟩ := List.append_inj' (show [] ++ [name] = _ from hnames) rfl
    obtain ⟨rfl, rfl⟩ := he.eq_tab hnil.symm
    cases hlast
    exact ⟨_, rfl, hc, hname⟩

theorem Reached.inner {outer name : String} (h : Reached tab way [outer, name] e) :
    ∃ i j g, way = [i, j] ∧ tab.children[i]? = some g ∧ entryOf? g = some ⟨"group", outer⟩ ∧
      g.children[j]? = some e ∧ entryOf? e = some ⟨"group", name⟩ := by
  generalize hnames : [outer, name] = names at h
  cases h with
  | tab => cases hnames
  | group he hc hname =>
    obtain ⟨rfl, hlast⟩ := List.append_inj' (show [outer] ++ [name] = _ from hnames) rfl
    obtain ⟨i, rfl, hg, hgroup⟩ := he.outer
    cases hlast
    exact ⟨i, _, _, rfl, hg, hgroup, hc, hname⟩

end Pages

section Own

variable {e : Element} {entry : Entry}

theorem functionEntries_eq (e : Element) :
    functionEntries e = listedFunctions .withColumnFunctions e := by
  have hchildren : childEntries e = (List.range e.children.length).filterMap (entryAt? e) :=
    (filterMap_range_getElem? entryOf? e.children).symm
  rw [functionEntries, entriesAt, placesOf, listedFunctions, hchildren, List.filterMap_filter,
    List.filter_filterMap]
  refine List.filterMap_congr fun n _ => ?_
  cases entryAt? e n with
  | none => rfl
  | some c => rw [Option.any_some, Option.filter_some, Reading.functionKinds]

def classPage? (groups : List String) (c : Element) : Option PageItem :=
  match entryOf? c with
  | some ⟨"class", path⟩ => some ⟨path, groups, "class", some (childNames c), none⟩
  | _ => none

theorem classPages_eq (groups : List String) (e : Element) :
    classPages groups e = e.children.filterMap (classPage? groups) := rfl

theorem pageKind_eq_listing (kind : String) :
    (pageKind kind = "module" ↔ kind = "module") ∧ (pageKind kind = "class" ↔ kind = "class") :=
  ⟨pageKind_eq_iff (.inl rfl), pageKind_eq_iff (.inr rfl)⟩

theorem outerPages_eq (name : String) (e : Element) (entry : Entry) :
    outerPages .withColumnFunctions [name] e entry = ownPage [name] e entry ::
      if entry.kind = "module" then e.children.filterMap (classPage? [name]) else [] := by
  simp only [outerPages, ownPage, pageKind_eq_listing, functionEntries_eq, classPages_eq]
  by_cases hmodule : entry.kind = "module"
  · simp [hmodule, pageKind]
  · by_cases hclass : entry.kind = "class" <;> simp [hmodule, hclass, pageKind]

theorem innerPage_eq (outer name : String) (e : Element) (entry : Entry) :
    innerPage [outer, name] e entry = ownPage [outer, name] e entry := by
  simp only [innerPage, ownPage, pageKind_eq_listing]
  simp [pageKind]

end Own

section Accounts

variable {tab e c m : Element} {way : List Nat} {page : PageItem} {entry : Entry} {name : String}
  {i j : Nat}

def asGroup? (c : Element) : Option (Element × String) :=
  (entryOf? c).bind fun entry => if entry.kind = "group" then some (c, entry.path) else none

def asItem? (c : Element) : Option (Element × Entry) :=
  (entryOf? c).bind fun entry => if entry.kind = "group" then none else some (c, entry)

theorem mem_numbered_asGroup? : (i, c, name) ∈ numbered asGroup? e ↔
    e.children[i]? = some c ∧ entryOf? c = some ⟨"group", name⟩ := by
  simp only [mem_numbered, asGroup?, Option.bind_eq_some_iff]
  constructor
  · rintro ⟨d, hd, ⟨kind, path⟩, hentry, hsome⟩
    split at hsome
    · rename_i hkind
      cases hkind
      cases hsome
      exact ⟨hd, hentry⟩
    · cases hsome
  · rintro ⟨hc, hentry⟩
    exact ⟨c, hc, _, hentry, if_pos rfl⟩

theorem mem_numbered_asItem? : (i, c, entry) ∈ numbered asItem? e ↔
    e.children[i]? = some c ∧ entryOf? c = some entry ∧ entry.kind ≠ "group" := by
  simp only [mem_numbered, asItem?, Option.bind_eq_some_iff]
  constructor
  · rintro ⟨d, hd, found, hentry, hsome⟩
    split at hsome
    · cases hsome
    · cases hsome
      exact ⟨hd, hentry, ‹_›⟩
  · rintro ⟨hc, hentry, hkind⟩
    exact ⟨c, hc, _, hentry, if_neg hkind⟩

theorem classPage?_eq_some {groups : List String} : classPage? groups c = some page ↔
    ∃ path, entryOf? c = some ⟨"class", path⟩ ∧
      page = ⟨path, groups, "class", some (childNames c), none⟩ := by
  rw [classPage?]
  split
  · rename_i path hentry
    simp [hentry, eq_comm]
  · rename_i hother
    constructor
    · intro hsome
      cases hsome
    · rintro ⟨path, hentry, -⟩
      exact absurd hentry (hother path)

/-- The pages of an item of a group, each with the way to its outline. -/
def itemAccounts (way : List Nat) (name : String) (c : Element) (entry : Entry) :
    List (List Nat × PageItem) :=
  (way, ownPage [name] c entry) ::
    if entry.kind = "module" then
      (numbered (classPage? [name]) c).map fun x => (way ++ [x.1], x.2)
    else []

def groupAccounts (i : Nat) (g : Element) (name : String) : List (List Nat × PageItem) :=
  ((numbered asItem? g).flatMap fun x => itemAccounts [i, x.1] name x.2.1 x.2.2) ++
    (numbered asGroup? g).flatMap fun x => (numbered asItem? x.2.1).map fun y =>
      ([i, x.1, y.1], ownPage [name, x.2.2] y.2.1 y.2.2)

def accountsOf (tab : Element) : List (List Nat × PageItem) :=
  (numbered asGroup? tab).flatMap fun x => groupAccounts x.1 x.2.1 x.2.2

theorem map_snd_itemAccounts (way : List Nat) (name : String) (c : Element) (entry : Entry) :
    (itemAccounts way name c entry).map Prod.snd =
      outerPages .withColumnFunctions [name] c entry := by
  rw [outerPages_eq, itemAccounts, List.map_cons, ← map_snd_numbered]
  split
  · rw [List.map_map]
    rfl
  · rfl

theorem map_snd_groupAccounts (i : Nat) (g : Element) (name : String) :
    (groupAccounts i g name).map Prod.snd =
      (outerGroup .withColumnFunctions g name).allPages := by
  have hitems (e : Element) : itemsOf e = (numbered asItem? e).map Prod.snd :=
    (map_snd_numbered asItem? e).symm
  have hgroups : groupsOf g = (numbered asGroup? g).map Prod.snd :=
    (map_snd_numbered asGroup? g).symm
  rw [groupAccounts, allPages_outerGroup, List.map_append, List.map_flatMap, List.map_flatMap,
    hitems, hgroups, List.flatMap_map, List.flatMap_map]
  simp only [map_snd_itemAccounts, allPages_innerGroup, hitems, List.map_map, innerPage_eq,
    Function.comp_def]

theorem map_snd_accountsOf {root : Element} (htab : firstTab? root = some tab) :
    (accountsOf tab).map Prod.snd = pagesOf .withColumnFunctions root := by
  have hgroups : groupsOf tab = (numbered asGroup? tab).map Prod.snd :=
    (map_snd_numbered asGroup? tab).symm
  rw [pagesOf, readTab?_eq, htab, Option.map_some, Option.map_some, Option.getD_some, pages_tabOf,
    accountsOf, List.map_flatMap, hgroups, List.flatMap_map]
  simp only [map_snd_groupAccounts]

theorem mem_itemAccounts : (way, page) ∈ itemAccounts [i, j] name c entry ↔
    way = [i, j] ∧ page = ownPage [name] c entry ∨
      entry.kind = "module" ∧ ∃ k d, way = [i, j, k] ∧ c.children[k]? = some d ∧
        classPage? [name] d = some page := by
  rw [itemAccounts, List.mem_cons, Prod.mk.injEq]
  refine or_congr_right ?_
  by_cases hmodule : entry.kind = "module"
  · rw [if_pos hmodule, List.mem_map]
    constructor
    · rintro ⟨⟨k, found⟩, hk, heq⟩
      cases heq
      obtain ⟨d, hd, hpage⟩ := mem_numbered.mp hk
      exact ⟨hmodule, k, d, rfl, hd, hpage⟩
    · rintro ⟨-, k, d, rfl, hd, hpage⟩
      exact ⟨(k, page), mem_numbered.mpr ⟨d, hd, hpage⟩, rfl⟩
  · simp [hmodule]

theorem mem_groupAccounts {g : Element} : (way, page) ∈ groupAccounts i g name ↔
    (∃ j c entry, g.children[j]? = some c ∧ entryOf? c = some entry ∧ entry.kind ≠ "group" ∧
      (way, page) ∈ itemAccounts [i, j] name c entry) ∨
    ∃ j h inner k c entry, g.children[j]? = some h ∧ entryOf? h = some ⟨"group", inner⟩ ∧
      h.children[k]? = some c ∧ entryOf? c = some entry ∧ entry.kind ≠ "group" ∧
      way = [i, j, k] ∧ page = ownPage [name, inner] c entry := by
  rw [groupAccounts, List.mem_append, List.mem_flatMap, List.mem_flatMap]
  refine or_congr ⟨?_, ?_⟩ ⟨?_, ?_⟩
  · rintro ⟨⟨j, c, entry⟩, hx, hmem⟩
    obtain ⟨hc, hentry, hkind⟩ := mem_numbered_asItem?.mp hx
    exact ⟨j, c, entry, hc, hentry, hkind, hmem⟩
  · rintro ⟨j, c, entry, hc, hentry, hkind, hmem⟩
    exact ⟨(j, c, entry), mem_numbered_asItem?.mpr ⟨hc, hentry, hkind⟩, hmem⟩
  · rintro ⟨⟨j, h, inner⟩, hx, hmem⟩
    obtain ⟨hh, hinner⟩ := mem_numbered_asGroup?.mp hx
    obtain ⟨⟨k, c, entry⟩, hy, heq⟩ := List.mem_map.mp hmem
    obtain ⟨hc, hentry, hkind⟩ := mem_numbered_asItem?.mp hy
    cases heq
    exact ⟨j, h, inner, k, c, entry, hh, hinner, hc, hentry, hkind, rfl, rfl⟩
  · rintro ⟨j, h, inner, k, c, entry, hh, hinner, hc, hentry, hkind, rfl, rfl⟩
    refine ⟨(j, h, inner), mem_numbered_asGroup?.mpr ⟨hh, hinner⟩, ?_⟩
    exact List.mem_map.mpr
      ⟨(k, c, entry), mem_numbered_asItem?.mpr ⟨hc, hentry, hkind⟩, rfl⟩

theorem mem_accountsOf : (way, page) ∈ accountsOf tab ↔
    ∃ i g name, tab.children[i]? = some g ∧ entryOf? g = some ⟨"group", name⟩ ∧
      (way, page) ∈ groupAccounts i g name := by
  rw [accountsOf, List.mem_flatMap]
  constructor
  · rintro ⟨⟨i, g, name⟩, hx, hmem⟩
    obtain ⟨hg, hname⟩ := mem_numbered_asGroup?.mp hx
    exact ⟨i, g, name, hg, hname, hmem⟩
  · rintro ⟨i, g, name, hg, hname, hmem⟩
    exact ⟨(i, g, name), mem_numbered_asGroup?.mpr ⟨hg, hname⟩, hmem⟩

/-- The accounts of a tab are the pages of its outlines with the ways to them. -/
theorem mem_accountsOf_iff : (way, page) ∈ accountsOf tab ↔ HasPage tab way page := by
  constructor
  · intro h
    obtain ⟨i, g, name, hg, hname, hmem⟩ := mem_accountsOf.mp h
    have hreached : Reached tab [i] [name] g := .group .tab hg hname
    rcases mem_groupAccounts.mp hmem with ⟨j, c, entry, hc, hentry, hkind, hitem⟩ |
      ⟨j, h, inner, k, c, entry, hh, hinner, hc, hentry, hkind, rfl, rfl⟩
    · rcases mem_itemAccounts.mp hitem with ⟨rfl, rfl⟩ | ⟨hmodule, k, d, rfl, hd, hpage⟩
      · exact .item hreached (.inl rfl) hc hentry hkind
      · obtain ⟨path, hclass, rfl⟩ := classPage?_eq_some.mp hpage
        obtain ⟨kind, own⟩ := entry
        cases hmodule
        exact .listed hreached hc hentry hd hclass
    · exact .item (.group hreached hh hinner) (.inr rfl) hc hentry hkind
  · intro h
    cases h with
    | item he hdepth hc hentry hkind =>
      rcases hdepth with hdepth | hdepth
      · obtain ⟨name, rfl⟩ := List.length_eq_one_iff.mp hdepth
        obtain ⟨i, rfl, hg, hname⟩ := he.outer
        exact mem_accountsOf.mpr ⟨i, _, name, hg, hname, mem_groupAccounts.mpr
          (.inl ⟨_, _, _, hc, hentry, hkind, mem_itemAccounts.mpr (.inl ⟨rfl, rfl⟩)⟩)⟩
      · obtain ⟨outer, name, rfl⟩ := List.length_eq_two.mp hdepth
        obtain ⟨i, j, g, rfl, hg, houter, hh, hname⟩ := he.inner
        exact mem_accountsOf.mpr ⟨i, g, outer, hg, houter, mem_groupAccounts.mpr
          (.inr ⟨j, _, name, _, _, _, hh, hname, hc, hentry, hkind, rfl, rfl⟩)⟩
    | listed he hm hmodule hc hentry =>
      obtain ⟨i, rfl, hg, hname⟩ := he.outer
      exact mem_accountsOf.mpr ⟨i, _, _, hg, hname, mem_groupAccounts.mpr
        (.inl ⟨_, _, _, hm, hmodule, by simp, mem_itemAccounts.mpr
          (.inr ⟨rfl, _, _, rfl, hc, classPage?_eq_some.mpr ⟨_, hentry, rfl⟩⟩)⟩)⟩

end Accounts

section Ways

variable {β : Type} {way : List Nat} {ways : List (List Nat)}

/-- Whether ways all go on from a given one, and no two are the same. -/
structure Branches (way : List Nat) (ways : List (List Nat)) : Prop where
  nodup : ways.Nodup
  below : ∀ w ∈ ways, way <+: w

theorem eq_of_same_start (way : List Nat) {i j : Nat} {w : List Nat} (hi : way ++ [i] <+: w)
    (hj : way ++ [j] <+: w) : i = j := by
  have hle := List.prefix_of_prefix_length_le hi hj (by simp)
  simpa using hle.eq_of_length (by simp)

/-- Ways that go on from different children are different. -/
theorem branches_flatMap (way : List Nat) {ns : List (Nat × β)} {f : Nat × β → List (List Nat)}
    (hns : (ns.map Prod.fst).Nodup) (hf : ∀ x ∈ ns, Branches (way ++ [x.1]) (f x)) :
    Branches way (ns.flatMap f) := by
  refine ⟨List.nodup_flatMap.mpr ⟨fun x hx => (hf x hx).nodup, ?_⟩, fun w hw => ?_⟩
  · refine (List.pairwise_map.mp hns).imp_of_mem fun {x y} hx hy hne w hwx hwy => ?_
    exact hne (eq_of_same_start way ((hf x hx).below w hwx) ((hf y hy).below w hwy))
  · obtain ⟨x, hx, hw⟩ := List.mem_flatMap.mp hw
    exact (List.prefix_append _ _).trans ((hf x hx).below w hw)

theorem branches_map {ks : List Nat} (h : ks.Nodup) (way : List Nat) :
    Branches way (ks.map fun k => way ++ [k]) := by
  refine ⟨h.map fun k l hkl => by simpa using hkl, fun w hw => ?_⟩
  obtain ⟨k, -, rfl⟩ := List.mem_map.mp hw
  exact List.prefix_append way [k]

theorem map_fst_itemAccounts (way : List Nat) (name : String) (c : Element) (entry : Entry) :
    (itemAccounts way name c entry).map Prod.fst = way ::
      if entry.kind = "module" then
        ((numbered (classPage? [name]) c).map Prod.fst).map fun k => way ++ [k]
      else [] := by
  rw [itemAccounts, List.map_cons]
  split
  · rw [List.map_map, List.map_map]
    rfl
  · rfl

theorem branches_itemAccounts (way : List Nat) (name : String) (c : Element) (entry : Entry) :
    Branches way ((itemAccounts way name c entry).map Prod.fst) := by
  rw [map_fst_itemAccounts]
  split
  · have hclasses := branches_map (nodup_map_fst_numbered (classPage? [name]) c) way
    exact ⟨List.nodup_cons.mpr ⟨by simp, hclasses.nodup⟩,
      List.forall_mem_cons.mpr ⟨List.prefix_rfl, hclasses.below⟩⟩
  · exact ⟨List.nodup_singleton way, by simp⟩

theorem branches_groupAccounts (i : Nat) (g : Element) (name : String) :
    Branches [i] ((groupAccounts i g name).map Prod.fst) := by
  have hitems (x : Nat × Element × Entry) :
      Branches [i, x.1] ((itemAccounts [i, x.1] name x.2.1 x.2.2).map Prod.fst) :=
    branches_itemAccounts _ _ _ _
  have hinner (x : Nat × Element × String) : Branches [i, x.1]
      (((numbered asItem? x.2.1).map fun y =>
        ([i, x.1, y.1], ownPage [name, x.2.2] y.2.1 y.2.2)).map Prod.fst) := by
    have hways := branches_map (nodup_map_fst_numbered asItem? x.2.1) [i, x.1]
    rw [List.map_map] at hways ⊢
    exact hways
  rw [groupAccounts, List.map_append, List.map_flatMap, List.map_flatMap]
  have houterWays := branches_flatMap [i] (nodup_map_fst_numbered asItem? g) fun x _ => hitems x
  have hinnerWays := branches_flatMap [i] (nodup_map_fst_numbered asGroup? g) fun x _ => hinner x
  refine ⟨List.nodup_append'.mpr ⟨houterWays.nodup, hinnerWays.nodup, fun w hw hw' => ?_⟩,
    List.forall_mem_append.mpr ⟨houterWays.below, hinnerWays.below⟩⟩
  -- no child is both a group and something else
  obtain ⟨⟨j, c, entry⟩, hx, hw⟩ := List.mem_flatMap.mp hw
  obtain ⟨⟨k, h, inner⟩, hy, hw'⟩ := List.mem_flatMap.mp hw'
  obtain rfl : j = k := eq_of_same_start [i] ((hitems _).below w hw) ((hinner _).below w hw')
  obtain ⟨hc, hentry, hkind⟩ := mem_numbered_asItem?.mp hx
  obtain ⟨hh, hname⟩ := mem_numbered_asGroup?.mp hy
  cases hc.symm.trans hh
  cases hentry.symm.trans hname
  exact hkind rfl

theorem branches_accountsOf (tab : Element) :
    Branches [] ((accountsOf tab).map Prod.fst) := by
  rw [accountsOf, List.map_flatMap]
  exact branches_flatMap [] (nodup_map_fst_numbered _ _) fun x _ => branches_groupAccounts _ _ _

end Ways

section Modules

variable {tab m : Element} {way : List Nat} {page : PageItem} {k : Nat}

/-- Whether a module stands directly in a single group. -/
def ModuleAt (tab : Element) (way : List Nat) (m : Element) : Prop :=
  ∃ place name g n own, Reached tab place [name] g ∧ g.children[n]? = some m ∧
    entryOf? m = some ⟨"module", own⟩ ∧ way = place ++ [n]

theorem mem_placesOf {kinds : List String} {e : Element} :
    k ∈ placesOf kinds e ↔ ∃ entry, entryAt? e k = some entry ∧ entry.kind ∈ kinds := by
  rw [placesOf, List.mem_filter, List.mem_range, Option.any_eq_true]
  constructor
  · rintro ⟨-, entry, hentry, hkind⟩
    exact ⟨entry, hentry, List.contains_iff_mem.mp hkind⟩
  · rintro ⟨entry, hentry, hkind⟩
    obtain ⟨c, hc, -⟩ := Option.bind_eq_some_iff.mp hentry
    exact ⟨(List.getElem?_eq_some_iff.mp hc).1, entry, hentry, List.contains_iff_mem.mpr hkind⟩

theorem map_fst_numbered_classPage? (groups : List String) (m : Element) :
    (numbered (classPage? groups) m).map Prod.fst = placesOf ["class"] m := by
  rw [map_fst_numbered, placesOf]
  refine List.filter_congr fun n _ => ?_
  rw [entryAt?, Bool.eq_iff_iff, Option.isSome_iff_exists, Option.any_eq_true]
  cases m.children[n]? with
  | none => simp
  | some c =>
    simp only [Option.bind_some, classPage?_eq_some]
    constructor
    · rintro ⟨page, path, hentry, -⟩
      exact ⟨_, hentry, by simp⟩
    · rintro ⟨⟨kind, path⟩, hentry, hkind⟩
      obtain rfl : kind = "class" := by simpa using hkind
      exact ⟨_, path, hentry, rfl⟩

/-- The pages of the classes that a module lists come directly behind its own. -/
theorem ModuleAt.isInfix (h : ModuleAt tab way m) :
    (way :: (placesOf ["class"] m).map fun k => way ++ [k]) <:+: (accountsOf tab).map Prod.fst := by
  obtain ⟨place, name, g, n, own, hreached, hm, hmodule, rfl⟩ := h
  obtain ⟨i, rfl, hg, hname⟩ := hreached.outer
  have hgroup : (i, g, name) ∈ numbered asGroup? tab :=
    mem_numbered_asGroup?.mpr ⟨hg, hname⟩
  have hitem : (n, m, ⟨"module", own⟩) ∈ numbered asItem? g :=
    mem_numbered_asItem?.mpr ⟨hm, hmodule, by simp⟩
  have hways := map_fst_itemAccounts [i, n] name m ⟨"module", own⟩
  rw [if_pos rfl, map_fst_numbered_classPage?] at hways
  have hinGroup : itemAccounts [i, n] name m ⟨"module", own⟩ <:+: groupAccounts i g name := by
    refine List.IsInfix.trans ?_ (List.prefix_append _ _).isInfix
    rw [List.flatMap_def]
    exact List.infix_of_mem_flatten (List.mem_map.mpr ⟨_, hitem, rfl⟩)
  have hinTab : groupAccounts i g name <:+: accountsOf tab := by
    rw [accountsOf, List.flatMap_def]
    exact List.infix_of_mem_flatten (List.mem_map.mpr ⟨_, hgroup, rfl⟩)
  exact hways ▸ (hinGroup.trans hinTab).map Prod.fst

theorem ModuleAt.hasPage (h : ModuleAt tab way m) :
    ∃ page, HasPage tab way page ∧
      page.children? = some ((functionEntries m).map Entry.name) ∧
      page.kinds? =
        some (.ofEntries ((functionEntries m).map fun f => (f.name, f.kind))) := by
  obtain ⟨place, name, g, n, own, hreached, hm, hmodule, rfl⟩ := h
  exact ⟨_, .item hreached (.inl rfl) hm hmodule (by simp), by simp [ownPage], by simp [ownPage]⟩

/-- A child of a module has a page if and only if it is a class. -/
theorem ModuleAt.hasPage_child_iff (h : ModuleAt tab way m) :
    (∃ page, HasPage tab (way ++ [k]) page) ↔ k ∈ placesOf ["class"] m := by
  obtain ⟨place, name, g, n, own, hreached, hm, hmodule, rfl⟩ := h
  obtain ⟨i, rfl, hg, -⟩ := hreached.outer
  constructor
  · rintro ⟨page, hpage⟩
    generalize hway : [i] ++ [n] ++ [k] = way at hpage
    cases hpage with
    | item he hdepth hc hentry hkind =>
      obtain ⟨rfl, -⟩ := List.append_inj' hway rfl
      rcases hdepth with hdepth | hdepth
      · obtain ⟨name, rfl⟩ := List.length_eq_one_iff.mp hdepth
        obtain ⟨i', heq, -⟩ := he.outer
        simp at heq
      · -- it would be in a group where the module is
        obtain ⟨outer, inner, rfl⟩ := List.length_eq_two.mp hdepth
        obtain ⟨i', j, g', heq, hg', -, he, hname⟩ := he.inner
        cases heq
        cases hg.symm.trans hg'
        cases hm.symm.trans he
        simp [hmodule] at hname
    | listed he hm' hmodule' hc hentry =>
      obtain ⟨hway, hk⟩ := List.append_inj' hway rfl
      obtain ⟨rfl, hn⟩ := List.append_inj' hway rfl
      obtain ⟨i', heq, hg', -⟩ := he.outer
      cases hk
      cases hn
      cases heq
      cases hg.symm.trans hg'
      cases hm.symm.trans hm'
      exact mem_placesOf.mpr ⟨_, Option.bind_eq_some_iff.mpr ⟨_, hc, hentry⟩, by simp⟩
  · intro hk
    obtain ⟨⟨kind, path⟩, hentry, hkind⟩ := mem_placesOf.mp hk
    obtain rfl : kind = "class" := by simpa using hkind
    obtain ⟨c, hc, hclass⟩ := Option.bind_eq_some_iff.mp hentry
    exact ⟨_, .listed hreached hm hmodule hc hclass⟩

/-- The pages of a tab are accounted for one by one: each belongs to an outline of its own, which
stands in one or two groups or is a class of a module in a single group, and each of these outlines
has one. The classes of such a module come directly behind it, and its children that are functions
or classes either are listed with it, each name with its last kind, or have a page. -/
theorem pages_account_for_outlines (root tab : Element) (htab : firstTab? root = some tab) :
    ∃ accounts : List (List Nat × PageItem),
      accounts.map Prod.snd = pagesOf .withColumnFunctions root ∧
      (accounts.map Prod.fst).Nodup ∧
      (∀ way page, (way, page) ∈ accounts ↔ HasPage tab way page) ∧
      ∀ way m, ModuleAt tab way m →
        (way :: (placesOf ["class"] m).map fun k => way ++ [k]) <:+: accounts.map Prod.fst ∧
        (∃ page kinds, (way, page) ∈ accounts ∧
          page.children? = some ((functionEntries m).map Entry.name) ∧ page.kinds? = some kinds ∧
          ∀ name, kinds.get? name =
            (((functionEntries m).filter fun f => f.name = name).getLast?).map Entry.kind) ∧
        ∀ k ∈ placesOf ["func", "udf", "class"] m,
          (k ∈ placesOf ["func", "udf"] m ↔ way ++ [k] ∉ accounts.map Prod.fst) := by
  refine ⟨accountsOf tab, map_snd_accountsOf htab, (branches_accountsOf tab).nodup,
    fun way page => mem_accountsOf_iff, fun way m hm => ⟨hm.isInfix, ?_, fun k hk => ?_⟩⟩
  · obtain ⟨page, hpage, hchildren, hkinds⟩ := hm.hasPage
    refine ⟨page, _, mem_accountsOf_iff.mpr hpage, hchildren, hkinds, fun name => ?_⟩
    rw [OrderedMap.get?_ofEntries, OrderedMap.lastValue?, List.filter_map, List.getLast?_map,
      Option.map_map]
    rfl
  · have hchild : way ++ [k] ∈ (accountsOf tab).map Prod.fst ↔ k ∈ placesOf ["class"] m := by
      rw [← hm.hasPage_child_iff, List.mem_map]
      constructor
      · rintro ⟨⟨w, page⟩, hmem, rfl⟩
        exact ⟨page, mem_accountsOf_iff.mp hmem⟩
      · rintro ⟨page, hpage⟩
        exact ⟨_, mem_accountsOf_iff.mpr hpage, rfl⟩
    obtain ⟨entry, hentry, hkind⟩ := mem_placesOf.mp hk
    simp only [hchild, mem_placesOf, hentry, Option.some.injEq, exists_eq_left']
    rcases List.mem_cons.mp hkind with hkind | hkind
    · simp [hkind]
    · rcases List.mem_cons.mp hkind with hkind | hkind
      · simp [hkind]
      · simp [List.mem_singleton.mp hkind]

/-- A module that lists a function with two kinds, and a class in between. -/
def twiceListed : Element :=
  outline ⟨"module", "m"⟩
    [outline ⟨"func", "m.f"⟩ [], outline ⟨"class", "m.C"⟩ [outline ⟨"method", "m.C.g"⟩ []],
      outline ⟨"udf", "m.f"⟩ []]

def twiceListedGroup : Element :=
  outline ⟨"group", "A"⟩ [twiceListed, outline ⟨"group", "B"⟩ [outline ⟨"page", "p"⟩ []]]

def twiceListedTab : Element := outline ⟨"tab", "T"⟩ [twiceListedGroup]

theorem pages_account_for_twiceListed :
    ∃ accounts : List (List Nat × PageItem),
      accounts.map Prod.snd = pagesOf .withColumnFunctions twiceListedTab ∧
      (accounts.map Prod.fst).Nodup ∧
      ([0, 1, 0], ⟨"p", ["A", "B"], "func", none, none⟩) ∈ accounts ∧
      [[0, 0], [0, 0, 1]] <:+: accounts.map Prod.fst ∧
      (∃ page kinds, ([0, 0], page) ∈ accounts ∧ page.children? = some ["f", "f"] ∧
        page.kinds? = some kinds ∧ kinds.get? "f" = some "udf") ∧
      [0, 0, 2] ∉ accounts.map Prod.fst := by
  obtain ⟨accounts, hpages, hnodup, hways, hmodules⟩ :=
    pages_account_for_outlines twiceListedTab twiceListedTab (by rfl)
  have hgroup : Reached twiceListedTab [0] ["A"] twiceListedGroup :=
    .group .tab rfl (by decide +kernel)
  have hinner : Reached twiceListedTab [0, 1] ["A", "B"] _ :=
    .group hgroup rfl (by decide +kernel)
  have hpage : HasPage twiceListedTab [0, 1, 0] _ :=
    .item hinner (.inr rfl) rfl (show entryOf? _ = some ⟨"page", "p"⟩ by decide +kernel)
      (by decide)
  have hfunctions : functionEntries twiceListed = [⟨"func", "m.f"⟩, ⟨"udf", "m.f"⟩] := by
    decide +kernel
  have hclasses : placesOf ["class"] twiceListed = [1] := by decide +kernel
  obtain ⟨hclass, ⟨page, kinds, hmem, hchildren, hkinds, hget⟩, hsplit⟩ :=
    hmodules [0, 0] twiceListed
      ⟨[0], "A", twiceListedGroup, 0, "m", hgroup, rfl, by decide +kernel, rfl⟩
  refine ⟨accounts, hpages, hnodup, (hways _ _).mpr hpage, ?_, ⟨page, kinds, hmem, ?_, hkinds, ?_⟩,
    ?_⟩
  · simpa [hclasses] using hclass
  · rw [hchildren, hfunctions]
    decide +kernel
  · rw [hget, hfunctions]
    decide +kernel
  · exact (hsplit 2 (by decide +kernel)).mp (by decide +kernel)

end Modules

end DocSite.Outline
