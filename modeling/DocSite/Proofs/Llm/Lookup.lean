import DocSite.Page.ClassPage
import DocSite.Proofs.Coverage.Scan
import DocSite.Proofs.Llm.Map
import DocSite.Proofs.Page.Publication

/-!
How the object at the end of a path is looked for, for a page and for an entry of a map.
-/

namespace DocSite.Llm

open Api

section Paths

variable {w : World} {path : String}

/-- A path that names a module to look in: it has a point, and not as its first character. -/
def IsPlaced (path : String) : Prop := '.' ∈ path.toList ∧ path.toList.head? ≠ some '.'

/-- The object that a path leads to. -/
def objectAt? (w : World) (path : String) : Option Entity :=
  (w.load (parentPath path)).toOption.bind (·.get? (lastPart path))

def classAt? (w : World) (path : String) : Option (ClassInfo × List (Layer Entity)) :=
  (objectAt? w path).bind classOf?

def callableAt? (w : World) (path : String) : Option Entity :=
  (objectAt? w path).filter Entity.isCallable

/-- Loading goes wrong for a reason of its own if there is nothing to look for or only something to
look for from elsewhere. -/
theorem load_misnamed (h : path = "" ∨ path.toList.head? = some '.') :
    ∃ fault, (∃ detail, fault = .badValue detail ∨ fault = .wrongKind detail) ∧
      ∀ w : World, w.load path = .error fault := by
  rcases h with rfl | h
  · exact ⟨_, ⟨_, .inl rfl⟩, fun _ => rfl⟩
  · refine ⟨_, ⟨"a relative path needs a package", .inr rfl⟩, fun w => ?_⟩
    obtain ⟨rest, hrest⟩ := List.head?_eq_some_iff.mp h
    simp [World.load, hrest, Text.startsWith, Text.afterStart?]

theorem isWritten_of_named (hne : path ≠ "") (h : path.toList.head? ≠ some '.') :
    IsWritten w path := by
  intro fault hload
  have hcs : path.toList ≠ [] := by simpa using hne
  obtain ⟨c, cs, hpath⟩ := List.exists_cons_of_ne_nil hcs
  have hc : '.' ≠ c := fun heq => h (by rw [hpath, heq]; rfl)
  simp only [World.load, hpath, Text.startsWith, Text.afterStart?, List.isEmpty_cons, if_neg hc,
    Option.isSome_none, Bool.false_eq_true, if_false] at hload
  exact Coverage.loadParts_error (by simpa using Text.splitChar_ne_nil '.' (c :: cs)) hload

theorem exists_child (h : '.' ∈ path.toList) :
    ∃ home name, path = home ++ "." ++ name ∧ '.' ∉ name.toList := by
  obtain ⟨last, before, hpath, hlast⟩ := List.eq_append_cons_of_mem (List.mem_reverse.mpr h)
  refine ⟨.ofList before.reverse, .ofList last.reverse, ?_, by simpa using hlast⟩
  rw [← String.toList_inj, ← List.reverse_inj, hpath]
  simp

theorem isWritten_of_isPlaced (h : IsPlaced path) : IsWritten w (parentPath path) := by
  obtain ⟨home, name, rfl, hname⟩ := exists_child h.1
  have hhead : (home.toList ++ '.' :: name.toList).head? ≠ some '.' := by simpa using h.2
  rw [parentPath_child hname]
  refine isWritten_of_named (fun hempty => ?_) fun hdot => ?_
  · simp [hempty] at hhead
  · simp [hdot] at hhead

/-- A path that names no module to look in is looked for in vain in every world, with one fault. -/
theorem load_of_not_isPlaced (h : ¬IsPlaced path) :
    ∃ fault, (∃ detail, fault = .badValue detail ∨ fault = .wrongKind detail) ∧
      ∀ w : World, w.load (parentPath path) = .error fault := by
  apply load_misnamed
  by_cases hdot : '.' ∈ path.toList
  · obtain ⟨home, name, rfl, hname⟩ := exists_child hdot
    rw [parentPath_child hname]
    by_cases hempty : home = ""
    · exact .inl hempty
    · have hhead : (home ++ "." ++ name).toList.head? = some '.' :=
        Classical.byContradiction fun hne => h ⟨hdot, hne⟩
      refine .inr ?_
      cases hhome : home.toList with
      | nil => exact absurd (by simpa using hhome) hempty
      | cons c cs => simpa [hhome] using hhead
  · refine .inl ?_
    rw [parentPath, Text.splitChar_of_not_mem hdot]
    rfl

end Paths

section Lookups

variable {w : World} {path kind complaint : String} {test : Entity → Bool}

theorem lookUp_cases (h : IsPlaced path) :
    (∃ e, (objectAt? w path).filter test = some e ∧
        ApiMap.lookUp w path kind complaint test = .ok (.ok e)) ∨
      (objectAt? w path).filter test = none ∧
        ∃ reason, ApiMap.lookUp w path kind complaint test = .ok (.error reason) := by
  unfold objectAt? ApiMap.lookUp
  cases hload : w.load (parentPath path) with
  | error fault =>
    obtain ⟨detail, rfl⟩ := isWritten_of_isPlaced h fault hload
    exact .inr ⟨rfl, detail, rfl⟩
  | ok m =>
    simp only [Except.toOption, Option.bind_some]
    cases m.get? (lastPart path) with
    | none => exact .inr ⟨rfl, _, rfl⟩
    | some e =>
      cases htest : test e with
      | true => exact .inl ⟨e, by simp [htest], by simp [htest]⟩
      | false => exact .inr ⟨by simp [htest], _, by simp [htest]; rfl⟩

/-- A page finds the class that a map finds, or has a reason of its own. -/
theorem findClass_cases (h : IsPlaced path) :
    (∃ found, classAt? w path = some found ∧ Page.findClass w path = .ok (.ok found)) ∨
      classAt? w path = none ∧ ∃ reason, Page.findClass w path = .ok (.error reason) := by
  unfold classAt? objectAt? Page.findClass
  dsimp only
  cases hload : w.load (parentPath path) with
  | error fault =>
    obtain ⟨detail, rfl⟩ := isWritten_of_isPlaced h fault hload
    exact .inr ⟨rfl, detail, rfl⟩
  | ok m =>
    simp only [Except.toOption, Option.bind_some]
    cases m.get? (lastPart path) with
    | none => exact .inr ⟨rfl, _, rfl⟩
    | some e =>
      cases e with
      | cls info layers => exact .inl ⟨_, rfl, rfl⟩
      | _ => exact .inr ⟨rfl, _, rfl⟩

theorem addClass_cases (m : ApiMap) (h : IsPlaced path) (children : List String) :
    (∃ info layers, classAt? m.scene.world path = some (info, layers) ∧
        m.addClass path children = .ok (m.push (m.scene.classEntry path info layers children))) ∨
      classAt? m.scene.world path = none ∧
        ∃ reason, m.addClass path children = .ok (m.push (errorEntry path reason "Class")) := by
  unfold ApiMap.addClass
  rcases lookUp_cases (w := m.scene.world) h with ⟨e, he, hlook⟩ | ⟨hnone, reason, hlook⟩
  · obtain ⟨hobject, hclass⟩ := Option.filter_eq_some_iff.mp he
    rw [hlook, classAt?, hobject]
    cases e with
    | cls info layers => exact .inl ⟨info, layers, rfl, rfl⟩
    | _ => cases hclass
  · rw [hlook]
    refine .inr ⟨?_, reason, rfl⟩
    rw [classAt?, Option.bind_eq_none_iff]
    intro e he
    have hclass := Option.filter_eq_none_iff.mp hnone e he
    cases e with
    | cls info layers => exact absurd rfl hclass
    | _ => rfl

theorem addFunction_cases (m : ApiMap) (h : IsPlaced path) :
    (∃ e, callableAt? m.scene.world path = some e ∧ m.addFunction path =
        .ok (m.push (m.scene.function (parentPath path) (lastPart path) e))) ∨
      callableAt? m.scene.world path = none ∧
        ∃ reason, m.addFunction path = .ok (m.push (errorEntry path reason "Function")) := by
  unfold ApiMap.addFunction
  rcases lookUp_cases (w := m.scene.world) h with ⟨e, he, hlook⟩ | ⟨hnone, reason, hlook⟩
  · rw [hlook]
    exact .inl ⟨e, he, rfl⟩
  · rw [hlook]
    exact .inr ⟨hnone, reason, rfl⟩

/-- Where the disk takes it, the page of a class that is not there is written and its path given. -/
theorem classPage_of_error {s : Page.Setting} {reason : String}
    (h : Page.findClass s.world path = .ok (.error reason)) (children : List String) (k : Desk) :
    (Page.classPage s path children).result k =
      (s.publish (lastPart path) (Page.classFailure (lastPart path) reason)).result k := by
  unfold Page.classPage
  rw [h]
  exact Job.bind_of_ok rfl

end Lookups

/-- A path that names a module to look in never stops the work: its object is found, or one error
page is written and its path given, or one error entry is added and given. Any other path stops all
of them with one fault, and nothing is written or added. -/
theorem lookups_end_iff (s : Page.Setting) (m : ApiMap) (path : String) (children : List String) :
    (IsPlaced path →
      ((∃ found, classAt? s.world path = some found ∧
          Page.findClass s.world path = .ok (.ok found)) ∨
        classAt? s.world path = none ∧
          ∃ text, (∃ reason, text = Page.classFailure (lastPart path) reason) ∧
            ∀ k d d', k.disk.makeDir s.output = .ok d →
              d.write (s.place (lastPart path)) text = .ok d' →
              Text.firstHalves? 0 text.toList = none →
              (Page.classPage s path children).result k =
                (.ok (Page.sitePath s.version (lastPart path)), { k with disk := d' })) ∧
      ((∃ info layers, classAt? m.scene.world path = some (info, layers) ∧
          m.addClass path children = .ok (m.push (m.scene.classEntry path info layers children))) ∨
        classAt? m.scene.world path = none ∧
          ∃ reason, m.addClass path children = .ok (m.push (errorEntry path reason "Class"))) ∧
      ((∃ e, callableAt? m.scene.world path = some e ∧ m.addFunction path =
          .ok (m.push (m.scene.function (parentPath path) (lastPart path) e))) ∨
        callableAt? m.scene.world path = none ∧
          ∃ reason, m.addFunction path = .ok (m.push (errorEntry path reason "Function")))) ∧
    (¬IsPlaced path → ∃ fault,
      (∀ k, (Page.classPage s path children).result k = (.error (.failed fault), k)) ∧
        m.addClass path children = .error fault ∧ m.addFunction path = .error fault) := by
  constructor
  · intro h
    refine ⟨?_, addClass_cases m h children, addFunction_cases m h⟩
    refine (findClass_cases h).imp_right fun ⟨hnone, reason, hfind⟩ =>
      ⟨hnone, _, ⟨reason, rfl⟩, ?_⟩
    intro k d d' hmake hwrite hwhole
    rw [classPage_of_error hfind]
    exact Page.publish_eq_ok.mpr ⟨rfl, hwhole, d, d', hmake, hwrite, rfl⟩
  · intro h
    obtain ⟨fault, hkind, hload⟩ := load_of_not_isPlaced h
    have hfind : Page.findClass s.world path = .error fault := by
      unfold Page.findClass
      simp only [hload]
      obtain ⟨_, rfl | rfl⟩ := hkind <;> rfl
    have hlook (kind complaint : String) (test : Entity → Bool) :
        ApiMap.lookUp m.scene.world path kind complaint test = .error fault := by
      unfold ApiMap.lookUp
      rw [hload]
      obtain ⟨_, rfl | rfl⟩ := hkind <;> rfl
    refine ⟨fault, fun k => ?_, ?_, ?_⟩
    · rw [Page.classPage, hfind]
      rfl
    · rw [ApiMap.addClass, hlook]
      rfl
    · rw [ApiMap.addFunction, hlook]
      rfl

/-- A name alone stops the work. -/
theorem lookups_stop_bare :
    ApiMap.addClass ⟨clientScene, ⟨2000, 1, 2, 3, 4, 5⟩, []⟩ "Table" [] =
      .error (.badValue "Empty module name") := by
  rfl

end DocSite.Llm
