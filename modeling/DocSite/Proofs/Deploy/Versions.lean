import DocSite.Deploy.Versions
import DocSite.Proofs.Navigation.MergeLabels
import DocSite.Proofs.Navigation.Pages

namespace DocSite

open Json OrderedMap

namespace Navigation

variable {docs tab : Json} {before after tabs entries : List Json}

theorem readable_archived {n : Nat} {e : Json} (h : Readable n e) (hobj : ∃ fs, e = .obj fs) :
    Readable n (archived e) := by
  obtain ⟨fs, rfl⟩ := hobj
  exact h.set (settled_of_all (by decide)) (.str (settled_of_all (by decide)))

theorem readable_versionsIn (h : Readable 3 tab) : ∀ e ∈ versionsIn tab, Readable 5 e := by
  intro e he
  cases tab with
  | obj fs =>
    cases hget : get? "dropdowns" fs with
    | none => simp [versionsIn, Json.field, Json.field?, Json.entries, hget, Json.items] at he
    | some v =>
      have hv := h.get? hget
      simp only [versionsIn, Json.field, Json.field?, Json.entries, hget, Option.getD_some] at he
      cases v with
      | arr es => exact hv.item he
      | _ => cases he
  | _ => cases he

theorem readable_withVersions (h : Readable 3 tab) (hobj : ∃ fs, tab = .obj fs)
    (hes : ∀ e ∈ entries, Readable 5 e) : Readable 3 (withVersions entries tab) := by
  obtain ⟨fs, rfl⟩ := hobj
  exact h.set (settled_of_all (by decide)) (.arr (by decide) hes)

theorem HasTabs.readable (h : HasTabs docs tabs) (hread : Readable 0 docs) :
    ∀ t ∈ tabs, Readable 3 t := by
  obtain ⟨fs, ns, rfl, hfs, hns⟩ := h
  intro t ht
  exact ((hread.get? hfs).get? hns).item ht

theorem HasTabs.readable_withTabs {tabs' : List Json} (h : HasTabs docs tabs)
    (hread : Readable 0 docs) (htabs : ∀ t ∈ tabs', Readable 3 t) :
    Readable 0 (withTabs tabs' docs) := by
  obtain ⟨fs, ns, rfl, hfs, hns⟩ := h
  have hnav := hread.get? hfs
  simp only [withTabs, Json.field, Json.field?, Json.entries, hfs, Option.getD_some]
  refine hread.set (settled_of_all (by decide)) (hnav.set (settled_of_all (by decide)) ?_)
  exact .arr (by decide) htabs

theorem ReferenceTab.readable (h : ReferenceTab docs before tab after) (hread : Readable 0 docs) :
    Readable 3 tab := by
  obtain ⟨tabs, htabs, hfirst⟩ := h
  exact htabs.readable hread tab (by simp [hfirst.eq])

/-- A configuration stays readable when its reference tab gets readable versions. -/
theorem ReferenceTab.readable_withVersions (h : ReferenceTab docs before tab after)
    (hread : Readable 0 docs) (hes : ∀ e ∈ entries, Readable 5 e) :
    Readable 0 (withTabs (before ++ Navigation.withVersions entries tab :: after) docs) := by
  have htab := Navigation.readable_withVersions (h.readable hread) h.isObject hes
  obtain ⟨tabs, htabs, hfirst⟩ := h
  refine htabs.readable_withTabs hread fun t ht => ?_
  rcases List.mem_append.mp ht with ht | ht
  · exact htabs.readable hread t (by simp [hfirst.eq, ht])
  · rcases List.mem_cons.mp ht with rfl | ht
    · exact htab
    · exact htabs.readable hread t (by simp [hfirst.eq, ht])

end Navigation

namespace Deploy

open Navigation

variable {label : String} {version copy docs docs' : Json}

/-- Where the pages of the latest version are. -/
def latestPages : List Char := "sdk/latest/".toList

def pagesOf (label : String) : List Char := ("sdk/" ++ label ++ "/").toList

theorem relabelled_inv (h : relabelled label version = .ok copy) :
    ∃ fs v groups, version = .obj fs ∧ get? "groups" fs = some v ∧
      v.items.mapM (movePages latestPages (pagesOf label)) = .ok groups ∧
      (v.items = [] ∧ copy = .obj (set "dropdown" (.str label) fs) ∨
        v = .arr v.items ∧
          copy = .obj (set "groups" (.arr groups) (set "dropdown" (.str label) fs))) := by
  obtain ⟨version', hput, h⟩ := Attempt.bind_eq_ok.mp h
  obtain ⟨fs, rfl, rfl⟩ := Json.put_eq_ok.mp hput
  obtain ⟨v, hv, h⟩ := Attempt.bind_eq_ok.mp h
  obtain ⟨each, heach, h⟩ := Attempt.bind_eq_ok.mp h
  obtain ⟨groups, hmoved, h⟩ := Attempt.bind_eq_ok.mp h
  obtain ⟨fs', hfs', hget⟩ := Json.item_eq_ok.mp hv
  cases hfs'
  rw [get?_set_of_ne (by decide)] at hget
  have hobj : ∀ x ∈ each, ∃ gs, x = .obj gs := by
    intro x hx
    obtain ⟨y, -, hy⟩ := Attempt.forall_ok_of_mapM hmoved x hx
    obtain ⟨gs, -, hgs, -⟩ := movePages_eq_ok hy
    exact ⟨gs, hgs⟩
  have hitems := items_of_each heach hobj
  refine ⟨fs, v, groups, rfl, hget, by rw [hitems]; exact hmoved, ?_⟩
  cases each with
  | nil =>
    left
    exact ⟨hitems, (Except.ok.inj h).symm⟩
  | cons x xs =>
    right
    refine ⟨?_, (Except.ok.inj h).symm⟩
    rw [hitems]
    exact each_eq_arr heach List.mem_cons_self (hobj x List.mem_cons_self)

theorem label?_relabelled (h : relabelled label version = .ok copy) : label? copy = some label := by
  obtain ⟨fs, v, groups, -, -, -, ⟨-, rfl⟩ | ⟨-, rfl⟩⟩ := relabelled_inv h
  · exact Json.textAt?_eq_some.mpr (get?_set_self _ _ _)
  · exact Json.textAt?_eq_some.mpr ((get?_set_of_ne (by decide) _ _).trans (get?_set_self _ _ _))

/-- The pages under another label are the pages of the latest version, moved. -/
theorem leavesOf_relabelled (h : relabelled label version = .ok copy) :
    leavesOf copy = (leavesOf version).map (movedLeaf latestPages (pagesOf label)) := by
  obtain ⟨fs, v, groups, rfl, hget, hmoved, ⟨hitems, rfl⟩ | ⟨-, rfl⟩⟩ := relabelled_inv h
  · have hget' : get? "groups" (set "dropdown" (.str label) fs) = some v :=
      (get?_set_of_ne (by decide) _ _).trans hget
    simp [leavesOf, Json.field, Json.field?, Json.entries, hget, hget', hitems]
  · simpa [leavesOf, Json.field, Json.field?, Json.entries, hget, Json.items] using
      leaves_mapM_movePages hmoved

theorem readable_relabelled {n : Nat} (h : relabelled label version = .ok copy)
    (hread : Readable n version) (hlabel : Settled label.toList)
    (hmoves : SettledMoves latestPages (pagesOf label) (leavesOf version)) : Readable n copy := by
  obtain ⟨fs, v, groups, rfl, hget, hmoved, hcopy⟩ := relabelled_inv h
  have hnamed : Readable n (.obj (set "dropdown" (.str label) fs)) :=
    hread.set (settled_of_all (by decide)) (.str hlabel)
  rcases hcopy with ⟨-, rfl⟩ | ⟨harr, rfl⟩
  · exact hnamed
  · refine hnamed.set (settled_of_all (by decide)) ?_
    have hv := hread.get? hget
    rw [harr] at hv
    cases hv with
    | arr hn hgroups =>
      refine .arr hn (readable_mapM_movePages hmoved hgroups ?_)
      simpa [leavesOf, Json.field, Json.field?, Json.entries, hget] using hmoves

theorem latestOf_eq_ok {v first : Json} (h : latestOf v = .ok first) :
    v = .arr [first] ∧ label? first = some latest := by
  obtain ⟨size, hsize, h⟩ := Attempt.bind_eq_ok.mp h
  split at h
  · cases h
  · rename_i hone
    split at h
    · cases h
    · obtain ⟨xs, hxs, h⟩ := Attempt.bind_eq_ok.mp h
      obtain ⟨w, hw, h⟩ := Attempt.bind_eq_ok.mp h
      split at h
      · rename_i hsame
        cases h
        obtain ⟨fs, hfs, hget⟩ := Json.item_eq_ok.mp hw
        have hlabel : label? (xs.head?.getD .null) = some latest := by
          rw [Json.same_str.mp hsame] at hget
          rw [hfs]
          exact Json.textAt?_eq_some.mpr hget
        refine ⟨?_, hlabel⟩
        cases xs with
        | nil => cases hfs
        | cons x xs =>
          rw [each_eq_arr hxs List.mem_cons_self ⟨fs, hfs⟩] at hsize ⊢
          have hlen : (x :: xs).length = 1 := by
            rw [Except.ok.inj hsize]
            exact Decidable.not_not.mp hone
          simpa using hlen
      · cases h

theorem addLabelled_inv (h : Deploy.addLabelled label docs = .ok docs') :
    ∃ before tab after first copy, ReferenceTab docs before tab after ∧
      versionsIn tab = [first] ∧ label? first = some latest ∧
      relabelled label first = .ok copy ∧
      docs' = withTabs (before ++ withVersions [first, copy] tab :: after) docs := by
  obtain ⟨tab?, htab, h⟩ := Attempt.bind_eq_ok.mp h
  cases tab? with
  | none => cases h
  | some tab =>
    obtain ⟨before, after, href⟩ := sdkTab?_eq_some.mp htab
    obtain ⟨v, hv, h⟩ := Attempt.bind_eq_ok.mp h
    obtain ⟨first, hfirst, h⟩ := Attempt.bind_eq_ok.mp h
    obtain ⟨copy, hcopy, h⟩ := Attempt.bind_eq_ok.mp h
    obtain ⟨tab', hput, h⟩ := Attempt.bind_eq_ok.mp h
    obtain ⟨rfl, hlabel⟩ := latestOf_eq_ok hfirst
    obtain ⟨fs, rfl, hget⟩ := Json.item_eq_ok.mp hv
    obtain ⟨fs', hfs', rfl⟩ := Json.put_eq_ok.mp hput
    cases hfs'
    rw [setSdkTab_eq href] at h
    refine ⟨before, .obj fs, after, first, copy, href, ?_, hlabel, hcopy,
      (Except.ok.inj h).symm⟩
    simp [versionsIn, Json.field, Json.field?, Json.entries, hget, Json.items]

theorem publishedIn_withVersions {tab : Json} {before after : List Json}
    (h : ReferenceTab docs before tab after) (entries : List Json) :
    publishedIn (withTabs (before ++ withVersions entries tab :: after) docs) = entries := by
  rw [(h.withVersions entries).publishedIn_eq, versionsIn_withVersions]

/-- The configuration with the labelled version holds that and the latest one. -/
theorem published_addLabelled (h : Deploy.addLabelled label docs = .ok docs') :
    ∃ first copy, publishedIn docs = [first] ∧ label? first = some latest ∧
      relabelled label first = .ok copy ∧ publishedIn docs' = [first, copy] ∧
      (Readable 0 docs → Readable 5 first ∧ (Readable 5 copy → Readable 0 docs')) := by
  obtain ⟨before, tab, after, first, copy, href, hversions, hlabel, hcopy, rfl⟩ := addLabelled_inv h
  refine ⟨first, copy, by rw [href.publishedIn_eq, hversions], hlabel, hcopy,
    publishedIn_withVersions href _, fun hread => ?_⟩
  have hfirst := readable_versionsIn (href.readable hread) first (by simp [hversions])
  refine ⟨hfirst, fun hcopied => href.readable_withVersions hread ?_⟩
  exact List.forall_mem_cons.mpr ⟨hfirst, List.forall_mem_singleton.mpr hcopied⟩

/-- The configuration of a merge holds the merged versions, and can be read if both can. -/
theorem published_mergeVersions {existing new : Json} {r : Json × Json}
    (h : mergeVersions existing new = .ok r) :
    Merged (publishedIn existing) (publishedIn new) (publishedIn r.2) ∧
      (Readable 0 existing → Readable 0 new → Readable 0 r.2) := by
  obtain ⟨before₀, oldTab, after₀, before, tab, after, merged, href₀, href, hmerged, hr⟩ :=
    mergeVersions_inv h
  rw [hr, publishedIn_withVersions href, href₀.publishedIn_eq, href.publishedIn_eq]
  refine ⟨hmerged, fun hexisting hnew => href.readable_withVersions hnew fun e he => ?_⟩
  obtain ⟨l, hl⟩ := hmerged.labels e he
  obtain hin | ⟨⟨x, hx, hlabel, rfl⟩, -⟩ := hmerged.cases he hl
  · exact readable_versionsIn (href.readable hnew) e hin
  · exact readable_archived (readable_versionsIn (href₀.readable hexisting) x hx)
      (isObject_of_textAt? hlabel)

end Deploy

end DocSite
