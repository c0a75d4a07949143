import DocSite.Navigation.Versions
import DocSite.Proofs.Json.RoundTrip
import DocSite.Proofs.Navigation.Merge

namespace DocSite.Navigation

open Json OrderedMap

variable {old new : List Char} {n : Nat}

mutual

/-- What stands as a page below the fields of a group, at any depth. -/
def leavesInFields : List (String × Json) → List Json
  | [] => []
  | (k, v) :: rest => if k = "pages" then leavesInList v else leavesInFields rest

def leavesInList : Json → List Json
  | .arr pages => leavesInEach pages
  | _ => []

def leavesInEach : List Json → List Json
  | [] => []
  | page :: pages => leavesOfPage page ++ leavesInEach pages

def leavesOfPage : Json → List Json
  | .obj fields => leavesInFields fields
  | v => [v]

end

def leavesInGroup (group : Json) : List Json := leavesInFields group.entries

/-- The leaves below all groups of a version. -/
def leavesOf (version : Json) : List Json := (version.field "groups").items.flatMap leavesInGroup

/-- A leaf in another place, where it is a text. -/
def movedLeaf (old new : List Char) : Json → Json
  | .str s => .str (Text.onChars (Text.replace old new) s)
  | v => v

mutual

theorem leavesInFields_blur : ∀ fields : List (String × Json),
    leavesInFields (blurFields fields) = (leavesInFields fields).map blur
  | [] => rfl
  | (k, v) :: rest => by
    by_cases hk : k = "pages"
    · simpa [blurFields, leavesInFields, hk] using leavesInList_blur v
    · simpa [blurFields, leavesInFields, hk] using leavesInFields_blur rest

theorem leavesInList_blur : ∀ v : Json, leavesInList v.blur = (leavesInList v).map blur
  | .arr pages => by simpa [blur, leavesInList] using leavesInEach_blur pages
  | .obj _ | .str _ | .null | .bool _ | .int _ | .float _ => rfl

theorem leavesInEach_blur : ∀ pages : List Json,
    leavesInEach (blurItems pages) = (leavesInEach pages).map blur
  | [] => rfl
  | page :: pages => by
    simp [blurItems, leavesInEach, leavesOfPage_blur page, leavesInEach_blur pages]

theorem leavesOfPage_blur : ∀ page : Json, leavesOfPage page.blur = (leavesOfPage page).map blur
  | .obj fields => by simpa [blur, leavesOfPage] using leavesInFields_blur fields
  | .arr _ | .str _ | .null | .bool _ | .int _ | .float _ => rfl

end

mutual

/-- Moving the pages of a group moves all leaves below it. -/
theorem leavesInFields_move : ∀ {fields fields' : List (String × Json)},
    moveInFields old new fields = .ok fields' →
      leavesInFields fields' = (leavesInFields fields).map (movedLeaf old new)
  | (k, v) :: rest, fields', h => by
    rw [moveInFields] at h
    by_cases hk : k = "pages"
    · rw [if_pos hk] at h
      obtain ⟨v', hv, hfields⟩ := Attempt.bind_eq_ok.mp h
      cases hfields
      simpa [leavesInFields, hk] using leavesInList_move hv
    · rw [if_neg hk] at h
      obtain ⟨rest', hrest, hfields⟩ := Attempt.bind_eq_ok.mp h
      cases hfields
      simpa [leavesInFields, hk] using leavesInFields_move hrest

theorem leavesInList_move : ∀ {v v' : Json}, movePageList old new v = .ok v' →
    leavesInList v' = (leavesInList v).map (movedLeaf old new)
  | .arr pages, v', h => by
    rw [movePageList] at h
    obtain ⟨pages', hpages, hv⟩ := Attempt.bind_eq_ok.mp h
    cases hv
    simpa [leavesInList] using leavesInEach_move hpages
  | .str s, v', h => by
    rw [movePageList] at h
    split at h
    · cases h
      rfl
    · cases h
  | .obj fields, v', h => by
    rw [movePageList] at h
    split at h
    · cases h
      rfl
    · cases h
  | .null, v', h | .bool _, v', h | .int _, v', h | .float _, v', h => by cases h

theorem leavesInEach_move : ∀ {pages pages' : List Json}, moveEach old new pages = .ok pages' →
    leavesInEach pages' = (leavesInEach pages).map (movedLeaf old new)
  | [], pages', h => by
    cases h
    rfl
  | page :: pages, pages', h => by
    rw [moveEach] at h
    obtain ⟨page', hpage, hrest⟩ := Attempt.bind_eq_ok.mp h
    obtain ⟨rest, hmoved, hresult⟩ := Attempt.bind_eq_ok.mp hrest
    cases hresult
    simp [leavesInEach, leavesOfPage_move hpage, leavesInEach_move hmoved]

theorem leavesOfPage_move : ∀ {page page' : Json}, movePage old new page = .ok page' →
    leavesOfPage page' = (leavesOfPage page).map (movedLeaf old new)
  | .obj fields, page', h => by
    rw [movePage] at h
    obtain ⟨fields', hfields, hpage⟩ := Attempt.bind_eq_ok.mp h
    cases hpage
    simpa [leavesOfPage] using leavesInFields_move hfields
  | .str s, page', h => by
    cases h
    rfl
  | .arr _, page', h | .null, page', h | .bool _, page', h | .int _, page', h
  | .float _, page', h => by cases h

end

/-- Whether every text among leaves that is settled stays so where it is moved to. -/
def SettledMoves (old new : List Char) (leaves : List Json) : Prop :=
  ∀ s, .str s ∈ leaves → Settled s.toList → Settled (Text.replace old new s.toList)

mutual

theorem readable_moveInFields : ∀ {n : Nat} {fields fields' : List (String × Json)},
    moveInFields old new fields = .ok fields' → (∀ f ∈ fields, Readable n f.2) →
      SettledMoves old new (leavesInFields fields) →
        fields'.map Prod.fst = fields.map Prod.fst ∧ ∀ f ∈ fields', Readable n f.2
  | n, (k, v) :: rest, fields', h, hread, hleaves => by
    obtain ⟨hv, hrest⟩ := List.forall_mem_cons.mp hread
    rw [moveInFields] at h
    by_cases hk : k = "pages"
    · rw [if_pos hk] at h
      obtain ⟨v', hmoved, hfields⟩ := Attempt.bind_eq_ok.mp h
      cases hfields
      have hv' := readable_movePageList hmoved hv (by simpa [leavesInFields, hk] using hleaves)
      exact ⟨rfl, List.forall_mem_cons.mpr ⟨hv', hrest⟩⟩
    · rw [if_neg hk] at h
      obtain ⟨rest', hmoved, hfields⟩ := Attempt.bind_eq_ok.mp h
      cases hfields
      obtain ⟨hkeys, hrest'⟩ := readable_moveInFields hmoved hrest
        (by simpa [leavesInFields, hk] using hleaves)
      exact ⟨by simp [hkeys], List.forall_mem_cons.mpr ⟨hv, hrest'⟩⟩

theorem readable_movePageList : ∀ {n : Nat} {v v' : Json}, movePageList old new v = .ok v' →
    Readable n v → SettledMoves old new (leavesInList v) → Readable n v'
  | n, .arr pages, v', h, .arr hn hitems, hleaves => by
    rw [movePageList] at h
    obtain ⟨pages', hpages, hv⟩ := Attempt.bind_eq_ok.mp h
    cases hv
    exact .arr hn (readable_moveEach hpages hitems (by simpa [leavesInList] using hleaves))
  | n, .str s, v', h, hread, hleaves => by
    rw [movePageList] at h
    split at h
    · cases h
      exact hread
    · cases h
  | n, .obj fields, v', h, hread, hleaves => by
    rw [movePageList] at h
    split at h
    · cases h
      exact hread
    · cases h
  | _, .null, v', h, _, _ | _, .bool _, v', h, _, _ | _, .int _, v', h, _, _
  | _, .float _, v', h, _, _ => by cases h

theorem readable_moveEach : ∀ {n : Nat} {pages pages' : List Json},
    moveEach old new pages = .ok pages' → (∀ x ∈ pages, Readable n x) →
      SettledMoves old new (leavesInEach pages) → ∀ x ∈ pages', Readable n x
  | n, [], pages', h, _, _ => by
    cases h
    simp
  | n, page :: pages, pages', h, hread, hleaves => by
    obtain ⟨hfirst, hothers⟩ := List.forall_mem_cons.mp hread
    rw [moveEach] at h
    obtain ⟨page', hpage, hrest⟩ := Attempt.bind_eq_ok.mp h
    obtain ⟨rest, hmoved, hresult⟩ := Attempt.bind_eq_ok.mp hrest
    cases hresult
    have hpage' := readable_movePage hpage hfirst fun s hs =>
      hleaves s (by simp [leavesInEach, hs])
    have hrest' := readable_moveEach hmoved hothers fun s hs =>
      hleaves s (by simp [leavesInEach, hs])
    exact List.forall_mem_cons.mpr ⟨hpage', hrest'⟩

theorem readable_movePage : ∀ {n : Nat} {page page' : Json}, movePage old new page = .ok page' →
    Readable n page → SettledMoves old new (leavesOfPage page) → Readable n page'
  | n, .obj fields, page', h, .obj hn hkeys hsettled hfields, hleaves => by
    rw [movePage] at h
    obtain ⟨fields', hmoved, hpage⟩ := Attempt.bind_eq_ok.mp h
    cases hpage
    obtain ⟨hkeys', hfields'⟩ := readable_moveInFields hmoved hfields
      (by simpa [leavesOfPage] using hleaves)
    refine .obj hn (hkeys' ▸ hkeys) (fun f hf => ?_) hfields'
    obtain ⟨g, hg, hkey⟩ := List.mem_map.mp (hkeys' ▸ List.mem_map_of_mem hf)
    exact hkey ▸ hsettled g hg
  | n, .str s, page', h, .str hs, hleaves => by
    cases h
    exact .str (by simpa [Text.onChars] using hleaves s (by simp [leavesOfPage]) hs)
  | _, .arr _, page', h, _, _ | _, .null, page', h, _, _ | _, .bool _, page', h, _, _
  | _, .int _, page', h, _, _ | _, .float _, page', h, _, _ => by cases h

end

theorem movePages_eq_ok {group group' : Json} (h : movePages old new group = .ok group') :
    ∃ fields fields', group = .obj fields ∧ group' = .obj fields' ∧
      moveInFields old new fields = .ok fields' := by
  cases group with
  | obj fields =>
    rw [movePages] at h
    obtain ⟨fields', hfields, hgroup⟩ := Attempt.bind_eq_ok.mp h
    exact ⟨fields, fields', rfl, (Except.ok.inj hgroup).symm, hfields⟩
  | _ => cases h

/-- Moving the pages of all groups moves all leaves. -/
theorem leaves_mapM_movePages {groups groups' : List Json}
    (h : groups.mapM (movePages old new) = .ok groups') :
    groups'.flatMap leavesInGroup = (groups.flatMap leavesInGroup).map (movedLeaf old new) := by
  induction groups generalizing groups' with
  | nil =>
    cases h
    rfl
  | cons group groups ih =>
    obtain ⟨group', rest, hgroup, hrest, rfl⟩ := Attempt.mapM_cons_eq_ok.mp h
    obtain ⟨fields, fields', rfl, rfl, hmoved⟩ := movePages_eq_ok hgroup
    have hfirst : leavesInGroup (.obj fields') = _ := leavesInFields_move hmoved
    rw [List.flatMap_cons, List.flatMap_cons, List.map_append, ih hrest, hfirst]
    rfl

theorem readable_mapM_movePages {groups groups' : List Json}
    (h : groups.mapM (movePages old new) = .ok groups') (hread : ∀ g ∈ groups, Readable n g)
    (hmoves : SettledMoves old new (groups.flatMap leavesInGroup)) :
    ∀ g ∈ groups', Readable n g := by
  induction groups generalizing groups' with
  | nil =>
    cases h
    simp
  | cons group groups ih =>
    obtain ⟨hfirst, hothers⟩ := List.forall_mem_cons.mp hread
    obtain ⟨group', rest, hgroup, hrest, rfl⟩ := Attempt.mapM_cons_eq_ok.mp h
    obtain ⟨fields, fields', rfl, rfl, hmoved⟩ := movePages_eq_ok hgroup
    have hpage : movePage old new (.obj fields) = .ok (.obj fields') := by
      rw [movePage, hmoved]
      rfl
    refine List.forall_mem_cons.mpr ⟨readable_movePage hpage hfirst fun s hs => ?_, ?_⟩
    · rw [leavesOfPage] at hs
      exact hmoves s (List.mem_append_left _ hs)
    · exact ih hrest hothers fun s hs => hmoves s (List.mem_append_right _ hs)

theorem leavesOf_blur (version : Json) : leavesOf version.blur = (leavesOf version).map blur := by
  rw [leavesOf, field_blur, items_blur, leavesOf]
  induction (version.field "groups").items with
  | nil => rfl
  | cons group groups ih =>
    simp only [List.map_cons, List.flatMap_cons, List.map_append, ih, leavesInGroup, entries_blur,
      leavesInFields_blur]

theorem label?_blur (version : Json) : label? version.blur = label? version :=
  textAt?_blur _ _

theorem publishedIn_blur (docs : Json) :
    publishedIn docs.blur = (publishedIn docs).map blur := by
  have htabs : tabsIn docs.blur = (tabsIn docs).map blur := by
    rw [tabsIn, field_blur, field_blur, items_blur, tabsIn]
  have hname : (fun t : Json => decide (t.textAt? "tab" = some sdkTab)) ∘ blur =
      fun t => decide (t.textAt? "tab" = some sdkTab) := by
    funext t
    simp [textAt?_blur]
  rw [publishedIn, htabs, List.find?_map, hname, publishedIn]
  cases (tabsIn docs).find? fun t => decide (t.textAt? "tab" = some sdkTab) with
  | none => rfl
  | some tab => simp [versionsIn, field_blur, items_blur]

end DocSite.Navigation
