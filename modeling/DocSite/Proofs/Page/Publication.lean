import DocSite.Page.ModulePage
import DocSite.Proofs.Disk
import DocSite.Proofs.Job

namespace DocSite

namespace Disk

variable {d : Disk} {place : List String}

theorem barred_of_no_file (h : ∀ q, d.fileAt q = none) (place : List String) :
    d.barred place = false := by
  rw [barred, List.any_eq_false]
  intro p _
  have hp := h p
  unfold fileAt at hp
  rcases hfound : d.find? p with _ | ⟨_⟩ | text
  · simp
  · simp
  · rw [hfound] at hp
    cases hp

theorem fileAt_empty (q : List String) : empty.fileAt q = none := by
  cases q <;> rfl

theorem length_le_of_mem_upTo {q : List String} (h : q ∈ upTo place) : q.length ≤ place.length := by
  obtain ⟨i, -, rfl⟩ := List.mem_map.mp h
  exact List.length_take_le' _ _

theorem self_mem_upTo (h : place ≠ []) : place ∈ upTo place := by
  have hlen := List.length_pos_iff.mpr h
  refine List.mem_map.mpr ⟨place.length - 1, List.mem_range.mpr (by omega), ?_⟩
  rw [Nat.sub_add_cancel hlen, List.take_length]

theorem isDir_fill_empty (place : List String) : (empty.fill place).isDir place = true := by
  by_cases h : place = []
  · subst h
    rfl
  · have hfree : empty.find? place = none := by cases place <;> first | rfl | exact absurd rfl h
    simp [isDir, find?_fill, hfree, self_mem_upTo h]

theorem isDir_fill_empty_child (place : List String) (name : String) :
    (empty.fill place).isDir (place ++ [name]) = false := by
  have hfree : empty.find? (place ++ [name]) = none := by
    simp [find?, empty, lookup]
  have hout : place ++ [name] ∉ upTo place := fun h => by
    have hlen := length_le_of_mem_upTo h
    rw [List.length_append, List.length_singleton] at hlen
    omega
  simp [isDir, find?_fill, hfree, hout]

end Disk

instance (q : List String) : Job.Hides Desk.withOut fun k => k.disk.fileAt q := ⟨fun _ _ => rfl⟩

/-- A job that leaves the file at a place as it is. -/
abbrev Job.KeepsFile {α : Type} (q : List String) (x : Job α) : Prop :=
  Keeps (fun k => k.disk.fileAt q) x

namespace Job.KeepsFile

theorem change {q : List String} {g : Disk → Except Fault Disk}
    (h : ∀ d d', g d = .ok d' → d'.fileAt q = d.fileAt q) : KeepsFile q (Job.change g) := by
  intro k
  cases hg : g k.disk with
  | error fault => rw [change_of_error hg]
  | ok d =>
    rw [change_of_ok hg]
    exact h _ _ hg

end Job.KeepsFile

namespace Page

variable {s : Setting} {name text page : String} {k k' : Desk} {q : List String}

theorem place_ne_nil (s : Setting) (name : String) : s.place name ≠ [] := by
  simp [Setting.place]

/-- Nothing but the file of a page is written when it is published. -/
theorem keepsFile_publish (hq : q ≠ s.place name) (text : String) :
    Job.KeepsFile q (s.publish name text) := by
  have hwrite (cs : String) : Job.KeepsFile q (Job.change (·.write (s.place name) cs)) := by
    apply Job.KeepsFile.change
    intro d d' hd
    rw [Disk.write_eq_ok hd]
    by_cases hnil : q = []
    · subst hnil
      rfl
    · rw [Disk.fileAt_put hnil, if_neg (Ne.symm hq)]
  have hmake : Job.KeepsFile q (Job.change (·.makeDir s.output)) := by
    apply Job.KeepsFile.change
    intro d d' hd
    rw [Disk.makeDir_eq_ok hd, Disk.fileAt_fill]
  refine hmake.bind fun _ => .bind ?_ fun _ => .pure _
  unfold Job.writeText
  split
  · exact hwrite _
  · exact (hwrite "").bind fun _ => .fail _

theorem publish_eq_ok : (s.publish name text).result k = (.ok page, k') ↔
    page = sitePath s.version name ∧ Text.firstHalves? 0 text.toList = none ∧
      ∃ d d', k.disk.makeDir s.output = .ok d ∧ d.write (s.place name) text = .ok d' ∧
        k' = { k with disk := d' } := by
  unfold Setting.publish Job.writeText
  cases Text.firstHalves? 0 text.toList with
  | none =>
    simp only [Job.bind_eq_ok, Job.change_eq_ok, String.ofList_toList, Job.result_pure]
    constructor
    · rintro ⟨_, _, ⟨d, hd, rfl⟩, _, _, ⟨d', hd', rfl⟩, heq⟩
      cases heq
      exact ⟨rfl, trivial, d, d', hd, hd', rfl⟩
    · rintro ⟨rfl, -, d, d', hd, hd', rfl⟩
      exact ⟨(), _, ⟨d, hd, rfl⟩, (), _, ⟨d', hd', rfl⟩, rfl⟩
  | some found =>
    constructor
    · intro h
      obtain ⟨_, _, -, h⟩ := Job.bind_eq_ok.mp h
      obtain ⟨_, _, h, -⟩ := Job.bind_eq_ok.mp h
      obtain ⟨_, _, -, h⟩ := Job.bind_eq_ok.mp h
      exact absurd h Job.fail_ne_ok
    · rintro ⟨-, h, -⟩
      cases h

theorem fileAt_publish (h : (s.publish name text).result k = (.ok page, k')) :
    k'.disk.fileAt (s.place name) = some text := by
  obtain ⟨-, -, d, d', -, hwrite, rfl⟩ := publish_eq_ok.mp h
  rw [Disk.write_eq_ok hwrite, Disk.fileAt_put (place_ne_nil s name), if_pos rfl]

/-- A page that can be published anywhere can be published where nothing is. -/
theorem publish_empty (h : (s.publish name text).result k = (.ok page, k')) {k₀ : Desk}
    (hempty : k₀.disk = .empty) :
    ((s.publish name text).result k₀).2.disk.fileAt (s.place name) = some text := by
  obtain ⟨-, hwhole, d, d', hmake, hwrite, -⟩ := publish_eq_ok.mp h
  obtain ⟨houtput, -⟩ := Disk.makeDir_eq_ok_iff.mp hmake
  obtain ⟨hplace, -⟩ := Disk.write_eq_ok_iff.mp hwrite
  have hmade : k₀.disk.makeDir s.output = .ok (Disk.empty.fill s.output) := by
    rw [hempty, Disk.makeDir_eq_ok_iff]
    exact ⟨houtput, Disk.barred_of_no_file Disk.fileAt_empty _, Disk.fileAt_empty _, rfl⟩
  have hnone (q : List String) : (Disk.empty.fill s.output).fileAt q = none := by
    rw [Disk.fileAt_fill, Disk.fileAt_empty]
  have hwritten : (Disk.empty.fill s.output).write (s.place name) text =
      .ok ((Disk.empty.fill s.output).put (s.place name) (.file text)) := by
    rw [Disk.write_eq_ok_iff]
    refine ⟨hplace, Disk.isDir_fill_empty_child _ _, Disk.barred_of_no_file hnone _, ?_, rfl⟩
    rw [Setting.place, List.dropLast_concat]
    exact Disk.isDir_fill_empty _
  have hpublished := publish_eq_ok.mpr ⟨rfl, hwhole, _, _, hmade, hwritten, rfl⟩
  rw [hpublished]
  exact fileAt_publish hpublished

/-- A job that tells some lines and then publishes a page, with a text that does not depend on
what it finds, unless no text can be made. -/
def Publishes (s : Setting) (name : String) (x : Job String) : Prop :=
  (∃ halt, ∀ k, ∃ k₁, k₁.disk = k.disk ∧ x.result k = (.error halt, k₁)) ∨
    ∃ text, ∀ k, ∃ k₁, k₁.disk = k.disk ∧ x.result k = (s.publish name text).result k₁

namespace Publishes

theorem publish (s : Setting) (name text : String) : Publishes s name (s.publish name text) :=
  .inr ⟨text, fun k => ⟨k, rfl, rfl⟩⟩

theorem bind {α : Type} {x : Job α} {f : α → Job String} (hx : x.OnlyTells)
    (hf : ∀ a, Publishes s name (f a)) : Publishes s name (x >>= f) := by
  obtain ⟨r, hr⟩ := hx
  cases r with
  | error halt =>
    refine .inl ⟨halt, fun k => ?_⟩
    obtain ⟨k₁, hk₁, hdisk⟩ := hr k
    exact ⟨k₁, hdisk, Job.bind_of_error hk₁⟩
  | ok a =>
    refine (hf a).imp (fun ⟨halt, hhalt⟩ => ⟨halt, fun k => ?_⟩)
      (fun ⟨text, htext⟩ => ⟨text, fun k => ?_⟩)
    · obtain ⟨k₁, hk₁, hdisk₁⟩ := hr k
      obtain ⟨k₂, hdisk₂, hk₂⟩ := hhalt k₁
      exact ⟨k₂, hdisk₂.trans hdisk₁, (Job.bind_of_ok hk₁).trans hk₂⟩
    · obtain ⟨k₁, hk₁, hdisk₁⟩ := hr k
      obtain ⟨k₂, hdisk₂, hk₂⟩ := htext k₁
      exact ⟨k₂, hdisk₂.trans hdisk₁, (Job.bind_of_ok hk₁).trans hk₂⟩

end Publishes

theorem onlyTells_listedMethod (path : String) (info : Api.ClassInfo)
    (layers : List (Api.Layer Api.Entity)) (name : String) :
    (listedMethod path info layers name).OnlyTells := by
  unfold listedMethod
  exact .ite (.bind (.print _) fun _ => .pure _) (.pure _)

theorem onlyTells_methodSections (s : Setting) (path : String) (info : Api.ClassInfo)
    (layers : List (Api.Layer Api.Entity)) (children : List String) :
    (methodSections s path info layers children).OnlyTells := by
  have hsections (methods : List (String × Api.Entity)) : (do
      let sections ← (Api.sortByName methods).mapM fun entry =>
        Job.ofHalting (Section.function s.aids .method entry.2 entry.1 none)
      return String.join sections : Job String).OnlyTells :=
    .bind (.mapM (fun _ => .ofHalting _) _) fun _ => .pure _
  unfold methodSections
  dsimp only
  split
  · exact .bind (.pure _) hsections
  · exact .bind (.map _ (.mapM (onlyTells_listedMethod path info layers) _)) hsections

theorem publishes_classPage (s : Setting) (path : String) (children : List String) :
    Publishes s (Api.lastPart path) (classPage s path children) := by
  unfold classPage
  refine Publishes.bind (.ofExcept _) fun found => ?_
  cases found with
  | error reason => exact .publish _ _ _
  | ok found =>
    refine .bind (.ofExcept _) fun _ => .bind (onlyTells_methodSections ..) fun _ => ?_
    exact .bind (.ofExcept _) fun _ => .publish _ _ _

/-- The same of work that remembers pages of classes, started when there are none and leaving
none, and that makes something of the path of the page. -/
def Makes {α : Type} (s : Setting) (name : String) (made : String → α) (x : PageJob α) : Prop :=
  (∃ halt, ∀ k, ∃ kept k₁, k₁.disk = k.disk ∧ x.result [] k = ((.error halt, kept), k₁)) ∨
    ∃ text, ∀ k, ∃ k₁, k₁.disk = k.disk ∧
      x.result [] k = ((((s.publish name text).result k₁).1.map made, []),
        ((s.publish name text).result k₁).2)

namespace Makes

variable {α β : Type} {made : String → α}

theorem fail (fault : Fault) : Makes s name made (throw (.failed fault) : PageJob α) :=
  .inl ⟨.failed fault, fun k => ⟨[], k, rfl, rfl⟩⟩

theorem lift {x : Job String} (h : Publishes s name x) :
    Makes s name id (liftM x : PageJob String) := by
  refine h.imp (fun ⟨halt, hhalt⟩ => ⟨halt, fun k => ?_⟩)
    (fun ⟨text, htext⟩ => ⟨text, fun k => ?_⟩)
  · obtain ⟨k₁, hdisk, hk₁⟩ := hhalt k
    exact ⟨[], k₁, hdisk, by rw [Keeping.result_lift, hk₁]⟩
  · obtain ⟨k₁, hdisk, hk₁⟩ := htext k
    refine ⟨k₁, hdisk, ?_⟩
    rw [Keeping.result_lift, hk₁]
    cases ((s.publish name text).result k₁).1 <;> rfl

theorem bind {x : PageJob β} {f : β → PageJob α} (hx : x.OnlyTells)
    (hf : ∀ b, Makes s name made (f b)) : Makes s name made (x >>= f) := by
  obtain ⟨r, hr⟩ := hx
  cases r with
  | error halt =>
    refine .inl ⟨halt, fun k => ?_⟩
    obtain ⟨kept, k₁, hk₁, hdisk, -⟩ := hr [] k
    exact ⟨kept, k₁, hdisk, Keeping.bind_of_error hk₁⟩
  | ok b =>
    have hnone (k : Desk) : ∃ k₁, x.result [] k = ((.ok b, []), k₁) ∧ k₁.disk = k.disk := by
      obtain ⟨kept, k₁, hk₁, hdisk, hkept⟩ := hr [] k
      exact ⟨k₁, hkept b rfl ▸ hk₁, hdisk⟩
    refine (hf b).imp (fun ⟨halt, hhalt⟩ => ⟨halt, fun k => ?_⟩)
      (fun ⟨text, htext⟩ => ⟨text, fun k => ?_⟩)
    · obtain ⟨k₁, hk₁, hdisk₁⟩ := hnone k
      obtain ⟨kept, k₂, hdisk₂, hk₂⟩ := hhalt k₁
      exact ⟨kept, k₂, hdisk₂.trans hdisk₁, (Keeping.bind_of_ok hk₁).trans hk₂⟩
    · obtain ⟨k₁, hk₁, hdisk₁⟩ := hnone k
      obtain ⟨k₂, hdisk₂, hk₂⟩ := htext k₁
      exact ⟨k₂, hdisk₂.trans hdisk₁, (Keeping.bind_of_ok hk₁).trans hk₂⟩

theorem andThen {x : PageJob α} {f : α → PageJob β} {g : α → β} (hx : Makes s name made x)
    (hf : ∀ a k, (f a).result [] k = ((.ok (g a), []), k)) :
    Makes s name (g ∘ made) (x >>= f) := by
  refine hx.imp (fun ⟨halt, hhalt⟩ => ⟨halt, fun k => ?_⟩)
    (fun ⟨text, htext⟩ => ⟨text, fun k => ?_⟩)
  · obtain ⟨kept, k₁, hdisk, hk₁⟩ := hhalt k
    exact ⟨kept, k₁, hdisk, Keeping.bind_of_error hk₁⟩
  · obtain ⟨k₁, hdisk, hk₁⟩ := htext k
    refine ⟨k₁, hdisk, ?_⟩
    rcases hpublish : (s.publish name text).result k₁ with ⟨r, k'⟩
    rw [hpublish] at hk₁
    cases r with
    | error halt => exact Keeping.bind_of_error hk₁
    | ok page => exact (Keeping.bind_of_ok hk₁).trans (hf (made page) k')

end Makes

section ModulePage

variable {path : String} {m : Api.Module} {listed children : List String}
  {kinds : OrderedMap String}

/-- Where no pages of classes can be made, a module that lists a class has none. -/
theorem onlyTells_classLinks (hs : s.makesClasses = false) {classes : List String}
    (hclasses : classes ≠ []) : (classLinks s path classes).OnlyTells := by
  refine ⟨.error (.failed (.noAttribute "ModulePageGenerator" "class_gen")), fun kept k => ?_⟩
  unfold classLinks
  obtain ⟨name, names, hsort⟩ : ∃ name names,
      (classes.mergeSort fun a b => a ≤ b) = name :: names := by
    apply List.exists_cons_of_ne_nil
    intro hnil
    have hlen := congrArg List.length hnil
    rw [List.length_mergeSort] at hlen
    exact hclasses (List.length_eq_zero_iff.mp hlen)
  rw [hsort, List.mapM_cons, hs]
  exact ⟨_, _, rfl, rfl, fun _ h => by cases h⟩

theorem onlyTells_moduleContents (hs : s.makesClasses = false) :
    (moduleContents s path m listed children kinds).OnlyTells := by
  have hfunctions (links : String) : (do
      let functions ← Job.ofHalting (moduleFunctions s path m children kinds)
      return links ++ functions : PageJob String).OnlyTells :=
    .bind (.lift (.ofHalting _)) fun _ => .pure _
  unfold moduleContents
  dsimp only
  split
  · exact .bind (.pure _) hfunctions
  · rename_i h
    exact .bind (onlyTells_classLinks hs (by simpa using h)) hfunctions

/-- The page of a module, where no pages of classes are made with it. -/
theorem makes_modulePage (hs : s.makesClasses = false) (path : String)
    (children? : Option (List String)) (kinds : OrderedMap String) :
    Makes s (Api.lastPart path) Json.str (modulePage s path children? kinds) := by
  have hpublish (text : String) := Makes.lift (Publishes.publish s (Api.lastPart path) text)
  unfold modulePage
  rcases s.world.load path with fault | m
  · cases fault with
    | noModule reason => exact (hpublish _).andThen fun _ _ => rfl
    | _ => exact .fail _
  · exact .bind (onlyTells_moduleContents hs) fun contents => (hpublish _).andThen fun _ _ => rfl

end ModulePage

end Page

end DocSite
