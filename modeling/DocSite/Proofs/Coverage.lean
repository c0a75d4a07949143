import DocSite.Coverage.Validate
import DocSite.Proofs.Fields
import DocSite.Proofs.Job

namespace DocSite.Coverage

variable {api outline items : Items} {path name : String}

/-- The items of a listing, each with the path it stands under, as often as it stands there. -/
def occurrences (items : Items) : List (String × Item) :=
  items.flatMap fun (path, found) => found.map fun i => (path, i)

/-- Whether a listing has something of a name under a path. -/
def Lists (items : Items) (path name : String) : Prop :=
  ∃ found, items.get? path = some found ∧ name ∈ found.map Item.name

theorem any_isListed {i : Item} :
    (items.get? path).any (isListed · i) = true ↔ Lists items path i.name := by
  simp [Lists, isListed, Option.any_eq_true]

instance (items : Items) (path name : String) : Decidable (Lists items path name) :=
  decidable_of_iff _ (any_isListed (i := ⟨"", name⟩))

theorem decide_lists (items : Items) (path : String) (i : Item) :
    decide (Lists items path i.name) = (items.get? path).any (isListed · i) := by
  rw [Bool.eq_iff_iff, decide_eq_true_iff, any_isListed]

theorem mem_occurrences {o : String × Item} :
    o ∈ occurrences items ↔ ∃ found, (o.1, found) ∈ items ∧ o.2 ∈ found := by
  simp only [occurrences, List.mem_flatMap, List.mem_map]
  constructor
  · rintro ⟨⟨path, found⟩, hmem, i, hi, rfl⟩
    exact ⟨found, hmem, hi⟩
  · rintro ⟨found, hmem, hi⟩
    exact ⟨(o.1, found), hmem, o.2, hi, rfl⟩

theorem filter_occurrences (p : String × Item → Bool) (items : Items) :
    (occurrences items).filter p =
      items.flatMap fun e => (e.2.filter fun i => p (e.1, i)).map fun i => (e.1, i) := by
  rw [occurrences, List.filter_flatMap]
  congr 1
  funext e
  rw [List.filter_map]
  rfl

theorem missing_eq (api outline : Items) :
    missing api outline =
      ((occurrences api).filter fun o => ¬ Lists outline o.1 o.2.name).map fun o =>
        entry o.1 o.2 := by
  rw [filter_occurrences, List.map_flatMap, missing]
  congr 1
  funext e
  simp only [decide_not, decide_lists, List.map_map]
  cases h : outline.get? e.1 with
  | none => rw [List.filter_eq_self.mpr (by simp)]; rfl
  | some listed => rfl

theorem notInCode_eq (api outline : Items) :
    notInCode api outline =
      ((occurrences outline).filter fun o => ¬ Lists api o.1 o.2.name).map fun o =>
        entry o.1 o.2 ++ if api.has o.1 then "" else " - module not found" := by
  rw [filter_occurrences, List.map_flatMap, notInCode]
  congr 1
  funext e
  simp only [decide_not, decide_lists, List.map_map]
  cases h : api.get? e.1 with
  | none => rw [List.filter_eq_self.mpr (by simp)]; simp [OrderedMap.has, h, Function.comp_def]
  | some found => simp [OrderedMap.has, h, Function.comp_def]

theorem missing_eq_nil :
    missing api outline = [] ↔ ∀ o ∈ occurrences api, Lists outline o.1 o.2.name := by
  simp [missing_eq, List.filter_eq_nil_iff]

theorem exists_of_emptyModules (h : emptyModules api outline ≠ []) :
    ∃ path i found, (path, []) ∈ outline ∧ api.get? path = some (i :: found) := by
  obtain ⟨line, hline⟩ := List.exists_mem_of_ne_nil _ h
  obtain ⟨⟨path, listed⟩, hmem, hline⟩ := List.mem_flatMap.mp hline
  cases listed with
  | cons i listed => simp at hline
  | nil =>
    cases hget : api.get? path with
    | none => simp [hget] at hline
    | some found =>
      cases found with
      | nil => simp [hget] at hline
      | cons i found => exact ⟨path, i, found, hmem, hget⟩

/-- An outline that is empty where there is something in the code lacks it. -/
theorem missing_ne_nil_of_emptyModules (houtline : outline.keys.Nodup)
    (h : emptyModules api outline ≠ []) : missing api outline ≠ [] := by
  obtain ⟨path, i, found, hmem, hget⟩ := exists_of_emptyModules h
  intro hmissing
  have hi : (path, i) ∈ occurrences api :=
    mem_occurrences.mpr ⟨_, OrderedMap.mem_of_get? hget, List.mem_cons_self⟩
  obtain ⟨listed, hlisted, hname⟩ := missing_eq_nil.mp hmissing _ hi
  rw [OrderedMap.get?_of_mem houtline hmem] at hlisted
  cases hlisted
  cases hname

theorem exitCode_eq_zero (houtline : outline.keys.Nodup) :
    (compare api outline).exitCode = 0 ↔
      ∀ o ∈ occurrences api, Lists outline o.1 o.2.name := by
  have hempty (h : missing api outline = []) : emptyModules api outline = [] :=
    Decidable.byContradiction fun hne => missing_ne_nil_of_emptyModules houtline hne h
  rw [← missing_eq_nil, Report.exitCode, compare]
  by_cases h : missing api outline = []
  · simp [h, hempty h]
  · simp [h]

theorem onlyTells_scanModules (w : Api.World) (package : String) (items : Items)
    (submodules : List String) : (scanModules w package items submodules).OnlyTells := by
  induction submodules generalizing items with
  | nil => exact .pure items
  | cons submodule rest ih =>
    unfold scanModules
    simp only
    split
    · exact ih _
    · exact .bind (.complain _) fun _ => ih _
    · exact .fail _

theorem onlyTells_scan (w : Api.World) (package : String) : (scan w package).OnlyTells := by
  refine .bind (.forM .print _) fun _ => ?_
  split
  · exact onlyTells_scanModules w package _ _
  · exact .bind (.complain _) fun _ => .bind (.complain _) fun _ => .exit 1
  · exact .fail _

/-- A scan that comes to no end was cut off by a fault, or by the package that is not there. -/
theorem scanModules_error {w : Api.World} {package : String} {submodules : List String}
    {k k' : Desk} {halt : Halt}
    (h : (scanModules w package items submodules).result k = (.error halt, k')) :
    ∃ fault, halt = .failed fault := by
  induction submodules generalizing items k with
  | nil => cases h
  | cons submodule rest ih =>
    unfold scanModules at h
    simp only at h
    split at h
    · exact ih h
    · exact ih h
    · cases h
      exact ⟨_, rfl⟩

theorem scan_ne_exited_zero {w : Api.World} {package : String} {k k' : Desk} :
    (scan w package).result k ≠ (.error (.exited 0), k') := by
  intro h
  unfold scan at h
  rw [Job.result_bind] at h
  have hcriteria : (criteria.forM Job.print).result k = (.ok (), _) := rfl
  rw [hcriteria] at h
  simp only at h
  split at h
  · obtain ⟨fault, hfault⟩ := scanModules_error h
    cases hfault
  · cases h
  · cases h

/-- What is compared in a check: a package as it was scanned, and an outline as it was read. -/
structure Compared (w : Api.World) (cwd file : Path) (package : Options.Value) (k : Desk)
    (api outline : Items) : Prop where
  scanned : ∃ name k', package = .text name ∧ (scan w name).result k = (.ok api, k')
  read : ∃ text root, k.disk.read (cwd.join file).place = .ok text ∧ Xml.parse text = .ok root ∧
    outline = Outline.coverage root

section Validate

variable {w : Api.World} {cwd file : Path} {package : Options.Value} {k : Desk}

theorem Compared.validate_eq (h : Compared w cwd file package k api outline) :
    ((validate w cwd file package).result k).1 =
      .error (.exited (compare api outline).exitCode) := by
  obtain ⟨⟨name, k', rfl, hscan⟩, text, root, hread, hparse, rfl⟩ := h
  obtain ⟨r, hr⟩ := onlyTells_scan w name
  obtain rfl : r = .ok api := by
    obtain ⟨k₁, hresult, -⟩ := hr k
    rw [hscan] at hresult
    exact (congrArg Prod.fst hresult).symm
  refine Job.Ends.at_desk (Q := fun r _ => r = .error (.exited _)) ?_
  unfold validate
  refine .print_bind (.print_bind (.print_bind (.print_bind (.print_bind ?_))))
  refine hr.bind_ends nofun fun items hitems => ?_
  obtain rfl := Except.ok.inj hitems
  refine .print_bind (.print_bind (.disk_bind (.ofExcept_bind hread (.ofExcept_bind hparse ?_))))
  refine .print_bind (.print_bind (.print_bind ?_))
  exact (Job.endsWith_forM_print _).bind_ends nofun fun _ _ _ _ => rfl

theorem Compared.keys_nodup (h : Compared w cwd file package k api outline) :
    outline.keys.Nodup := by
  obtain ⟨-, _, root, -, -, rfl⟩ := h
  exact OrderedMap.nodup_ofEntries _

theorem exists_compared (h : ((validate w cwd file package).result k).1 = .error (.exited 0)) :
    ∃ api outline, Compared w cwd file package k api outline := by
  suffices hends : (validate w cwd file package).Ends k.disk fun r _ => r = .error (.exited 0) →
      ∃ api outline, Compared w cwd file package k api outline from hends.at_desk h
  unfold validate
  refine .print_bind (.print_bind (.print_bind (.print_bind (.print_bind ?_))))
  cases package with
  | text name =>
    obtain ⟨r, hr⟩ := onlyTells_scan w name
    obtain ⟨k', hscan, -⟩ := hr k
    refine hr.bind_ends (fun halt hhalt _ hzero => ?_) fun items hitems => ?_
    · obtain rfl := Except.error.inj hzero
      exact absurd (hhalt ▸ hscan) scan_ne_exited_zero
    · refine .print_bind (.print_bind (.disk_bind ?_))
      refine .ofExcept_bind_cases (fun _ _ _ => nofun) fun text htext => ?_
      refine .ofExcept_bind_cases (fun _ _ _ => nofun) fun root hroot => ?_
      exact fun _ _ _ => ⟨items, _, ⟨name, k', rfl, hitems ▸ hscan⟩, text, root, htext, hroot, rfl⟩
  | _ => exact fun _ _ => nofun

end Validate

/-- A check tells exactly the items that the outline lacks or has too much, each as often as it is
there, and ends with 0 if and only if the outline lacks nothing. -/
theorem validation_exact (api outline : Items) (houtline : outline.keys.Nodup) :
    (compare api outline).missing = ((occurrences api).filter fun o =>
        ¬ Lists outline o.1 o.2.name).map (fun o => entry o.1 o.2) ∧
      (compare api outline).notInCode = ((occurrences outline).filter fun o =>
        ¬ Lists api o.1 o.2.name).map (fun o =>
          entry o.1 o.2 ++ if api.has o.1 then "" else " - module not found") ∧
      ((compare api outline).empty ≠ [] → (compare api outline).missing ≠ []) ∧
      ((compare api outline).exitCode = 0 ↔
        ∀ o ∈ occurrences api, Lists outline o.1 o.2.name) ∧
      ∀ w cwd file package k,
        ((validate w cwd file package).result k).1 = .error (.exited 0) ↔
          ∃ api outline, Compared w cwd file package k api outline ∧
            ∀ o ∈ occurrences api, Lists outline o.1 o.2.name := by
  refine ⟨missing_eq api outline, notInCode_eq api outline,
    missing_ne_nil_of_emptyModules houtline, exitCode_eq_zero houtline, ?_⟩
  intro w cwd file package k
  constructor
  · intro h
    obtain ⟨found, listed, hcompared⟩ := exists_compared h
    rw [hcompared.validate_eq] at h
    have hcode : (compare found listed).exitCode = 0 := by simpa using h
    exact ⟨found, listed, hcompared, (exitCode_eq_zero hcompared.keys_nodup).mp hcode⟩
  · rintro ⟨found, listed, hcompared, hall⟩
    rw [hcompared.validate_eq, (exitCode_eq_zero hcompared.keys_nodup).mpr hall]

theorem validation_exact_partial :
    let api : Items :=
      [("m", [⟨"func", "f"⟩, ⟨"func", "g"⟩, ⟨"udf", "g"⟩]), ("n", [⟨"class", "C"⟩])]
    let outline : Items :=
      [("m", [⟨"func", "f"⟩, ⟨"func", "h"⟩]), ("n", []), ("o", [⟨"func", "k"⟩])]
    outline.keys.Nodup ∧
      (compare api outline).missing = ["m.g (func)", "m.g (udf)", "n.C (class)"] ∧
      (compare api outline).notInCode = ["m.h (func)", "o.k (func) - module not found"] ∧
      (compare api outline).exitCode ≠ 0 := by
  intro api outline
  have houtline : outline.keys.Nodup := by decide
  obtain ⟨hmissing, hextra, -, hcode, -⟩ := validation_exact api outline houtline
  refine ⟨houtline, hmissing.trans (by decide), hextra.trans (by decide), fun h => ?_⟩
  exact absurd (hcode.mp h ("n", ⟨"class", "C"⟩) (by decide)) (by decide)

end DocSite.Coverage
