import DocSite.Proofs.Coverage
import DocSite.Proofs.Text

/-!
Under which modules the objects of a package are listed. A module has the objects whose own module
has a name that begins with its name, letter by letter, so that `whisper` has those of `whisperx`.
-/

namespace DocSite.Coverage

open Api

variable {w : World} {package path key : String} {m : Module} {items : Items} {i : Item}
  {found : List Item} {paths subs : List String}

/-- Whether an item is listed under a path, by its kind and its name. -/
def Holds (items : Items) (key : String) (i : Item) : Prop :=
  ∃ found, items.get? key = some found ∧ i ∈ found

/-- Items of classes have kinds that those of modules do not have. -/
def Item.isMember (i : Item) : Bool := i.kind = "method" || i.kind = "property"

section Step

theorem mem_publicObjects : i ∈ (publicObjects package path m).map Prod.fst ↔
    i.name ∈ publicNames m ∧ ∃ e, m.get? i.name = some e ∧ belongsTo package path e = true ∧
      objectKind? e = some i.kind := by
  simp only [publicObjects, List.map_filterMap, List.mem_filterMap]
  constructor
  · rintro ⟨n, hn, hitem⟩
    simp only [Option.map_eq_some_iff, Option.bind_eq_some_iff,
      Option.ite_none_right_eq_some] at hitem
    obtain ⟨⟨j, e⟩, ⟨e', he', hbelongs, kind, hkind, hpair⟩, rfl⟩ := hitem
    cases hpair
    exact ⟨hn, e, he', hbelongs, hkind⟩
  · rintro ⟨hn, e, he, hbelongs, hkind⟩
    exact ⟨i.name, hn, by simp [he, hbelongs, hkind]⟩

theorem isMember_classItems {info : ClassInfo} {layers : List (Layer Entity)}
    (h : i ∈ classItems info layers) : i.isMember = true := by
  obtain ⟨n, -, hi⟩ := List.mem_filterMap.mp h
  split at hi
  · obtain ⟨kind, hkind, rfl⟩ := Option.map_eq_some_iff.mp hi
    rename_i e _
    cases e <;> cases hkind <;> rfl
  · cases hi
    rfl

/-- Lists the members of an object of a module, if it is a class. -/
def listMembers (path : String) (items : Items) (object : Item × Entity) : Items :=
  match object.2 with
  | .cls info layers => addItems (path ++ "." ++ object.1.name) (classItems info layers) items
  | _ => items

theorem addModule_eq (package path : String) (m : Module) (items : Items) :
    addModule package path m items = addItems path ((publicObjects package path m).map Prod.fst)
      ((publicObjects package path m).foldl (listMembers path) items) := rfl

theorem get?_addItems (found : List Item) (items : Items) (path key : String) :
    (addItems path found items).get? key =
      if key = path ∧ found ≠ [] then some found else items.get? key := by
  unfold addItems
  by_cases hfound : found = []
  · simp [hfound]
  · rw [if_neg (by simpa using hfound)]
    by_cases hkey : key = path
    · rw [hkey, OrderedMap.get?_set_self, if_pos ⟨rfl, hfound⟩]
    · rw [OrderedMap.get?_set_of_ne hkey, if_neg fun h => hkey h.1]

/-- A path that is neither another one nor right below it. -/
def Beside (path key : String) : Prop := key ≠ path ∧ ∀ name, key ≠ path ++ "." ++ name

theorem get?_foldl_listMembers (h : ∀ name, key ≠ path ++ "." ++ name)
    (objects : List (Item × Entity)) (items : Items) :
    (objects.foldl (listMembers path) items).get? key = items.get? key := by
  induction objects generalizing items with
  | nil => rfl
  | cons object objects ih =>
    rw [List.foldl_cons, ih]
    unfold listMembers
    split
    · rw [get?_addItems, if_neg fun hkey => h _ hkey.1]
    · rfl

theorem get?_addModule (h : Beside path key) (package : String) (m : Module) (items : Items) :
    (addModule package path m items).get? key = items.get? key := by
  rw [addModule_eq, get?_addItems, if_neg fun hkey => h.1 hkey.1, get?_foldl_listMembers h.2]

/-- Under all paths but some there are members of classes only. -/
def MembersBut (paths : List String) (items : Items) : Prop :=
  ∀ key i, Holds items key i → key ∈ paths ∨ i.isMember = true

theorem MembersBut.listMembers (h : MembersBut paths items) (path : String)
    (object : Item × Entity) :
    MembersBut paths (listMembers path items object) := by
  unfold Coverage.listMembers
  split
  · rintro key i ⟨found, hfound, hi⟩
    rw [get?_addItems] at hfound
    split at hfound
    · cases hfound
      exact .inr (isMember_classItems hi)
    · exact h key i ⟨found, hfound, hi⟩
  · exact h

theorem MembersBut.foldl (h : MembersBut paths items) (path : String)
    (objects : List (Item × Entity)) :
    MembersBut paths (objects.foldl (Coverage.listMembers path) items) := by
  induction objects generalizing items with
  | nil => exact h
  | cons object objects ih => exact ih (h.listMembers path object)

theorem MembersBut.addModule (h : MembersBut paths items) (package path : String) (m : Module) :
    MembersBut (path :: paths) (addModule package path m items) := by
  rintro key i ⟨found, hfound, hi⟩
  rw [addModule_eq, get?_addItems] at hfound
  split at hfound
  · rename_i hkey
    exact .inl (hkey.1 ▸ List.mem_cons_self)
  · exact (h.foldl path _ key i ⟨found, hfound, hi⟩).imp_left (List.mem_cons_of_mem _)

theorem ne_below (path name : String) : path ≠ path ++ "." ++ name := by
  intro h
  have hlength := congrArg (·.toList.length) h
  simp at hlength

/-- A module that is listed for the first time has its public objects listed and nothing else. -/
theorem holds_addModule (h : MembersBut paths items) (hnew : path ∉ paths)
    (hi : i.isMember = false) : Holds (addModule package path m items) path i ↔
      i ∈ (publicObjects package path m).map Prod.fst := by
  rw [Holds, addModule_eq, get?_addItems, get?_foldl_listMembers (ne_below path)]
  by_cases hobjects : (publicObjects package path m).map Prod.fst = []
  · rw [if_neg (by simp [hobjects]), hobjects]
    refine iff_of_false (fun hholds => ?_) List.not_mem_nil
    rcases h path i hholds with hmem | hmember
    · exact hnew hmem
    · cases hi.symm.trans hmember
  · rw [if_pos ⟨rfl, hobjects⟩]
    constructor
    · rintro ⟨found, ⟨⟩, hmem⟩
      exact hmem
    · exact fun hmem => ⟨_, rfl, hmem⟩

end Step

section Run

theorem loadParts_error {parts : List String} {fault : Fault} (hparts : parts ≠ [])
    (h : w.loadParts parts = .error fault) : ∃ detail, fault = .noModule detail := by
  induction parts with
  | nil => exact absurd rfl hparts
  | cons part above ih =>
    unfold World.loadParts at h
    simp only at h
    split at h
    · cases h
    · split at h
      · cases h
        exact ⟨_, rfl⟩
      · rename_i hne
        cases hparent : w.loadParts above with
        | ok parent =>
          rw [hparent] at h
          cases h
          exact ⟨_, rfl⟩
        | error other =>
          rw [hparent] at h
          cases h
          exact ih (by simpa using hne) hparent

/-- Below a package that can be loaded, a module can be loaded or is not there. -/
theorem load_below {main : Module} (hmain : w.load package = .ok main) (s : String) {fault : Fault}
    (h : w.load (package ++ "." ++ s) = .error fault) : ∃ detail, fault = .noModule detail := by
  unfold World.load at hmain h
  simp only [String.toList_append] at hmain h
  cases hcs : package.toList with
  | nil => simp [hcs] at hmain
  | cons c cs =>
    have hc : Text.startsWith ['.'] (c :: cs) = false := by
      cases hdot : Text.startsWith ['.'] (c :: cs) with
      | false => rfl
      | true => simp [hcs, hdot] at hmain
    have hstart : Text.startsWith ['.'] (c :: cs ++ ".".toList ++ s.toList) = false := by
      simpa [Text.startsWith, Text.afterStart?] using hc
    rw [hcs, hstart] at h
    simp only [List.cons_append, List.isEmpty_cons, Bool.false_eq_true, if_false] at h
    exact loadParts_error (by simpa using Text.splitChar_ne_nil _ _) h

/-- Where the modules of a list are looked for. -/
def modulePath (package submodule : String) : String := package ++ "." ++ submodule

theorem scanModules_found {s : String} (h : w.load (modulePath package s) = .ok m)
    (items : Items) (subs : List String) : scanModules w package items (s :: subs) =
      scanModules w package (addModule package (modulePath package s) m items) subs := by
  rw [scanModules]
  simp only [show w.load (package ++ "." ++ s) = .ok m from h, modulePath]

theorem scanModules_missing {s detail : String}
    (h : w.load (modulePath package s) = .error (.noModule detail))
    (items : Items) (subs : List String) (k : Desk) : ∃ k₁,
      (scanModules w package items (s :: subs)).result k =
        (scanModules w package items subs).result k₁ := by
  rw [scanModules]
  simp only [show w.load (package ++ "." ++ s) = .error (.noModule detail) from h]
  exact ⟨_, rfl⟩

/-- Every module that is there has its public objects listed, since no later one is listed under its
path or right above it. -/
theorem scanModules_lists {main : Module} (hmain : w.load package = .ok main)
    (hbeside : subs.Pairwise fun s t => Beside (modulePath package t) (modulePath package s))
    (hitems : MembersBut paths items) (hnew : ∀ s ∈ subs, modulePath package s ∉ paths)
    (k : Desk) :
    ∃ items' k', (scanModules w package items subs).result k = (.ok items', k') ∧
      (∀ key, (∀ s ∈ subs, Beside (modulePath package s) key) → items'.get? key = items.get? key) ∧
      ∀ s ∈ subs, ∀ m, w.load (modulePath package s) = .ok m → ∀ i : Item, i.isMember = false →
        (Holds items' (modulePath package s) i ↔
          i ∈ (publicObjects package (modulePath package s) m).map Prod.fst) := by
  induction subs generalizing items paths k with
  | nil => exact ⟨items, k, rfl, fun _ _ => rfl, nofun⟩
  | cons s subs ih =>
    obtain ⟨hfirst, hrest⟩ := List.pairwise_cons.mp hbeside
    obtain ⟨hs, hsubs⟩ := List.forall_mem_cons.mp hnew
    cases hload : w.load (modulePath package s) with
    | error fault =>
      obtain ⟨detail, rfl⟩ := load_below hmain s hload
      obtain ⟨k₁, hstep⟩ := scanModules_missing hload items subs k
      obtain ⟨items', k', hresult, hframe, hlists⟩ := ih hrest hitems hsubs k₁
      refine ⟨items', k', hstep.trans hresult,
        fun key hkey => hframe key (List.forall_mem_cons.mp hkey).2, ?_⟩
      refine List.forall_mem_cons.mpr ⟨fun m hm => ?_, hlists⟩
      cases hload.symm.trans hm
    | ok m =>
      have hother : ∀ t ∈ subs, modulePath package t ∉ modulePath package s :: paths := by
        intro t ht hmem
        rcases List.mem_cons.mp hmem with heq | hmem
        · exact (hfirst t ht).1 heq.symm
        · exact hsubs t ht hmem
      obtain ⟨items', k', hresult, hframe, hlists⟩ := ih hrest
        (hitems.addModule package (modulePath package s) m) hother k
      rw [scanModules_found hload]
      refine ⟨items', k', hresult, fun key hkey => ?_, ?_⟩
      · obtain ⟨hhere, hlater⟩ := List.forall_mem_cons.mp hkey
        rw [hframe key hlater, get?_addModule hhere]
      · refine List.forall_mem_cons.mpr ⟨fun m' hm i hi => ?_, hlists⟩
        cases hload.symm.trans hm
        rw [← holds_addModule hitems hs hi, Holds, Holds, hframe _ hfirst]

theorem submodules_cases {s : String} (h : s ∈ submodules) :
    (∃ rest, s.toList = "functions.".toList ++ rest ∧ '.' ∉ rest) ∨
      '.' ∉ s.toList ∧ s.toList.head? = some 'i' := by
  have hall : submodules.all (fun s =>
      (Text.afterStart? "functions.".toList s.toList).any (fun rest => !rest.contains '.') ||
        !s.toList.contains '.' && s.toList.head? = some 'i') = true := by decide +kernel
  have hs := List.all_eq_true.mp hall s h
  simp only [Bool.or_eq_true, Option.any_eq_true, Bool.and_eq_true, decide_eq_true_eq,
    Bool.not_eq_true', List.contains_eq_mem, decide_eq_false_iff_not] at hs
  refine hs.imp_left ?_
  rintro ⟨rest, hrest, hdot⟩
  exact ⟨rest, Text.afterStart?_eq_some.mp hrest, hdot⟩

/-- No module of the list lies right below another. -/
theorem not_below_submodule {s t : String} (hs : s ∈ submodules) (ht : t ∈ submodules)
    (name : String) : s ≠ t ++ "." ++ name := by
  intro heq
  have hchars : s.toList = t.toList ++ '.' :: name.toList := by simp [heq]
  rcases submodules_cases hs with ⟨rest, hrest, hdot⟩ | ⟨hdot, -⟩
  · rcases submodules_cases ht with ⟨front, hfront, -⟩ | ⟨-, hhead⟩
    · rw [hchars, hfront, List.append_assoc, List.append_cancel_left_eq] at hrest
      simp [← hrest] at hdot
    · have hfirst := congrArg List.head? (hchars.symm.trans hrest)
      simp [List.head?_append, hhead] at hfirst
  · simp [hchars] at hdot

theorem beside_submodules (package : String) : submodules.Pairwise fun s t =>
    Beside (modulePath package t) (modulePath package s) := by
  have hcut {s t : String} (h : modulePath package s = package ++ "." ++ t) : s = t := by
    rw [modulePath, ← String.toList_inj, String.toList_append, String.toList_append (t := t),
      List.append_cancel_left_eq] at h
    exact String.toList_inj.mp h
  have hnodup : submodules.Nodup := by decide
  refine hnodup.imp_of_mem fun {s t} hs ht hne => ?_
  refine ⟨fun heq => hne (hcut heq), fun name heq => not_below_submodule hs ht name (hcut ?_)⟩
  exact heq.trans (by simp [modulePath, String.append_assoc])

theorem scan_lists {main : Module} (hmain : w.load package = .ok main) (k : Desk) :
    ∃ items k', (scan w package).result k = (.ok items, k') ∧
      ∀ s ∈ submodules, ∀ m, w.load (modulePath package s) = .ok m → ∀ i : Item,
        i.isMember = false → (Holds items (modulePath package s) i ↔
          i ∈ (publicObjects package (modulePath package s) m).map Prod.fst) := by
  have hstart : MembersBut [package] (addModule package package main []) := by
    apply MembersBut.addModule
    rintro key i ⟨found, hfound, -⟩
    cases hfound
  have hnew : ∀ s ∈ submodules, modulePath package s ∉ [package] := by
    intro s _ hmem
    exact ne_below package s (List.mem_singleton.mp hmem).symm
  obtain ⟨k₁, hcriteria⟩ : ∃ k₁, (criteria.forM Job.print).result k = (.ok (), k₁) := ⟨_, rfl⟩
  obtain ⟨items, k', hresult, -, hlists⟩ :=
    scanModules_lists hmain (beside_submodules package) hstart hnew k₁
  refine ⟨items, k', ?_, hlists⟩
  rw [scan, Job.bind_of_ok hcriteria]
  simp only [hmain]
  exact hresult

end Run

section Homes

variable {home : String}

/-- Whether a module is another one or lies below it. -/
def IsFrom (path home : String) : Prop := home = path ∨ (path ++ ".").toList <+: home.toList

/-- Whether the name of a module goes on where that of another ends, and not with a point. -/
def RunsOn (path home : String) : Prop :=
  ∃ c rest, c ≠ '.' ∧ home.toList = path.toList ++ c :: rest

theorem isPrefix_iff_isFrom_or_runsOn :
    path.toList <+: home.toList ↔ IsFrom path home ∨ RunsOn path home := by
  constructor
  · rintro ⟨rest, hrest⟩
    cases rest with
    | nil =>
      rw [List.append_nil] at hrest
      exact .inl (.inl (String.toList_inj.mp hrest.symm))
    | cons c rest =>
      by_cases hc : c = '.'
      · refine .inl (.inr ⟨rest, ?_⟩)
        rw [String.toList_append, ← hrest, hc, List.append_assoc]
        rfl
      · exact .inr ⟨c, rest, hc, hrest.symm⟩
  · rintro ((rfl | hbelow) | ⟨c, rest, -, hhome⟩)
    · exact List.prefix_rfl
    · rw [String.toList_append] at hbelow
      exact (List.prefix_append _ _).trans hbelow
    · exact ⟨c :: rest, hhome.symm⟩

theorem IsFrom.not_runsOn (h : IsFrom path home) : ¬RunsOn path home := by
  rintro ⟨c, rest, hc, hhome⟩
  rcases h with rfl | ⟨more, hmore⟩
  · simp at hhome
  · rw [hhome, String.toList_append, List.append_assoc, List.append_cancel_left_eq] at hmore
    exact hc (List.cons.inj hmore).1.symm

theorem isPrefix_iff_isFrom_iff :
    (path.toList <+: home.toList ↔ IsFrom path home) ↔ ¬RunsOn path home := by
  rw [isPrefix_iff_isFrom_or_runsOn]
  constructor
  · intro h hruns
    exact (h.mp (.inr hruns)).not_runsOn hruns
  · intro hnot
    exact or_iff_left hnot

theorem belongsTo_iff {e : Entity} (hpath : path ≠ package) (hplain : isOwnColumnFunction e = false)
    (hhome : e.home? = some home) :
    belongsTo package path e = true ↔ path.toList <+: home.toList := by
  simp [belongsTo, hpath, hplain, hhome, String.startsWith_string_iff]

theorem isMember_objectKind {e : Entity} {kind name : String} (h : objectKind? e = some kind) :
    (Item.mk kind name).isMember = false := by
  cases e with
  | udf u =>
    simp only [objectKind?, Option.some.injEq] at h
    subst h
    split <;> rfl
  | _ => cases h <;> rfl

end Homes

/-- A package that can be loaded can be scanned. A public class or function that is no column
function is listed under a module exactly if the name of its own module begins with that of the
module. This is the rule that it is from the module, or from one below it, exactly for those whose
own module's name does not go on with another character than a point. -/
theorem scan_attributes_iff {main : Module} (hmain : w.load package = .ok main) (k : Desk) :
    ∃ items k', (scan w package).result k = (.ok items, k') ∧
      ∀ s ∈ submodules, ∀ m, w.load (modulePath package s) = .ok m →
        ∀ n ∈ publicNames m, ∀ e kind home, m.get? n = some e → objectKind? e = some kind →
          isOwnColumnFunction e = false → e.home? = some home →
            (Holds items (modulePath package s) ⟨kind, n⟩ ↔
              (modulePath package s).toList <+: home.toList) ∧
            ((Holds items (modulePath package s) ⟨kind, n⟩ ↔ IsFrom (modulePath package s) home) ↔
              ¬RunsOn (modulePath package s) home) := by
  obtain ⟨items, k', hresult, hlists⟩ := scan_lists hmain k
  refine ⟨items, k', hresult, fun s hs m hm n hn e kind home he hkind hplain hhome => ?_⟩
  have hpath : modulePath package s ≠ package := (ne_below package s).symm
  have hlisted : Holds items (modulePath package s) ⟨kind, n⟩ ↔
      (modulePath package s).toList <+: home.toList := by
    rw [hlists s hs m hm _ (isMember_objectKind hkind), mem_publicObjects,
      ← belongsTo_iff hpath hplain hhome]
    constructor
    · rintro ⟨-, e', he', hbelongs, -⟩
      cases he.symm.trans he'
      exact hbelongs
    · exact fun hbelongs => ⟨hn, e, he, hbelongs, hkind⟩
  exact ⟨hlisted, by rw [hlisted, isPrefix_iff_isFrom_iff]⟩

/-- A function that is found in a module and says where it is from. -/
def transcribe (home : String) : Entity :=
  .func ⟨"transcribe", none, ⟨[], none⟩, some home, .plain, false, .absent⟩

def whisper (home : String) : Module :=
  ⟨"pixeltable.functions.whisper", none, [("transcribe", transcribe home)], .unknown,
    some ["transcribe"], none, []⟩

def whisperWorld (home : String) : World :=
  [⟨"pixeltable", none, [], .unknown, some [], none, []⟩, whisper home]

theorem load_whisperWorld (home : String) :
    (∃ main, (whisperWorld home).load "pixeltable" = .ok main) ∧
      (whisperWorld home).load (modulePath "pixeltable" "functions.whisper") = .ok (whisper home) :=
  ⟨⟨_, rfl⟩, rfl⟩

theorem scan_attributes_own :
    let w := whisperWorld "pixeltable.functions.whisper.base"
    (∃ main, w.load "pixeltable" = .ok main) ∧ ∃ items k',
      (scan w "pixeltable").result (Desk.on .empty) = (.ok items, k') ∧
        Holds items "pixeltable.functions.whisper" ⟨"func", "transcribe"⟩ := by
  intro w
  obtain ⟨⟨main, hmain⟩, hload⟩ := load_whisperWorld "pixeltable.functions.whisper.base"
  obtain ⟨items, k', hresult, hlists⟩ := scan_attributes_iff hmain (Desk.on .empty)
  refine ⟨⟨main, hmain⟩, items, k', hresult, ?_⟩
  refine (hlists "functions.whisper" (by decide) _ hload "transcribe" List.mem_cons_self
    _ "func" _ rfl rfl rfl rfl).1.mpr ?_
  exact List.isPrefixOf_iff_prefix.mp (by decide +kernel)

/-- What is from `whisperx` is listed under `whisper`. -/
theorem scan_attributes_other :
    let w := whisperWorld "pixeltable.functions.whisperx"
    ¬IsFrom "pixeltable.functions.whisper" "pixeltable.functions.whisperx" ∧ ∃ items k',
      (scan w "pixeltable").result (Desk.on .empty) = (.ok items, k') ∧
        Holds items "pixeltable.functions.whisper" ⟨"func", "transcribe"⟩ := by
  intro w
  have hruns : RunsOn "pixeltable.functions.whisper" "pixeltable.functions.whisperx" :=
    ⟨'x', [], by decide, rfl⟩
  obtain ⟨⟨main, hmain⟩, hload⟩ := load_whisperWorld "pixeltable.functions.whisperx"
  obtain ⟨items, k', hresult, hlists⟩ := scan_lists hmain (Desk.on .empty)
  refine ⟨fun hfrom => hfrom.not_runsOn hruns, items, k', hresult, ?_⟩
  refine (hlists "functions.whisper" (by decide) _ hload ⟨"func", "transcribe"⟩ rfl).mpr ?_
  refine mem_publicObjects.mpr ⟨List.mem_cons_self, _, rfl, ?_, rfl⟩
  refine (belongsTo_iff (by decide +kernel) rfl rfl).mpr ?_
  exact isPrefix_iff_isFrom_or_runsOn.mpr (.inr hruns)

end DocSite.Coverage
