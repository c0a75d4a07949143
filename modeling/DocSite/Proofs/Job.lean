import DocSite.Shell

namespace DocSite

namespace Desk

abbrev withDisk (k : Desk) (disk : Disk) : Desk := { k with disk := disk }

abbrev withOut (k : Desk) (out : String) : Desk := { k with out := out }

abbrev withCommands (k : Desk) (commands : List Command) : Desk := { k with commands := commands }

end Desk

namespace Job

variable {α β : Type} {x : Job α} {f : α → Job β} {k k' : Desk} {a : α} {b : β}

theorem result_bind (x : Job α) (f : α → Job β) (k : Desk) :
    (x >>= f).result k =
      match x.result k with
      | (.ok a, k') => (f a).result k'
      | (.error halt, k') => (.error halt, k') := by
  change (ExceptT.bindCont (fun a => f a) (x.result k).1).run (x.result k).2 = _
  rcases hx : x.result k with ⟨r, k'⟩
  cases r <;> rfl

theorem bind_of_ok (h : x.result k = (.ok a, k')) : (x >>= f).result k = (f a).result k' := by
  rw [result_bind, h]

theorem bind_of_error {halt : Halt} (h : x.result k = (.error halt, k')) :
    (x >>= f).result k = (.error halt, k') := by
  rw [result_bind, h]

/-- Both parts of a job that succeeds have succeeded. -/
theorem bind_eq_ok : (x >>= f).result k = (.ok b, k') ↔
    ∃ a k₁, x.result k = (.ok a, k₁) ∧ (f a).result k₁ = (.ok b, k') := by
  rw [result_bind]
  rcases hx : x.result k with ⟨r, k₁⟩
  cases r with
  | error halt => simp
  | ok a =>
    constructor
    · intro h
      exact ⟨a, k₁, rfl, h⟩
    · rintro ⟨_, _, ⟨⟩, h⟩
      exact h

theorem result_tryCatch (x : Job α) (handle : Halt → Job α) (k : Desk) :
    (tryCatch x handle).result k =
      match x.result k with
      | (.ok a, k') => (.ok a, k')
      | (.error halt, k') => (handle halt).result k' := by
  unfold result ExceptT.run StateT.run
  simp only [tryCatch, tryCatchThe, MonadExceptOf.tryCatch, ExceptT.tryCatch, ExceptT.mk, bind,
    StateT.bind]
  rcases x k with ⟨r, k'⟩
  cases r <;> rfl

@[simp] theorem result_pure (a : α) (k : Desk) : (pure a : Job α).result k = (.ok a, k) := rfl

@[simp] theorem result_disk (k : Desk) : Job.disk.result k = (.ok k.disk, k) := rfl

@[simp] theorem result_setDisk (d : Disk) (k : Desk) :
    (setDisk d).result k = (.ok (), { k with disk := d }) := rfl

theorem fail_ne_ok {fault : Fault} : (fail fault : Job α).result k ≠ (.ok a, k') := by
  rintro ⟨⟩

theorem ofExcept_eq_ok {r : Except Fault α} :
    (ofExcept r).result k = (.ok a, k') ↔ r = .ok a ∧ k = k' := by
  cases r with
  | error fault => simp [ofExcept, fail_ne_ok]
  | ok b => simp [ofExcept]

theorem ofHalting_eq_ok {r : Except Halt α} :
    (ofHalting r).result k = (.ok a, k') ↔ r = .ok a ∧ k = k' := by
  cases r with
  | error halt => exact ⟨nofun, nofun⟩
  | ok b => simp [ofHalting]

theorem change_eq_ok {g : Disk → Except Fault Disk} {u : Unit} :
    (change g).result k = (.ok u, k') ↔ ∃ d, g k.disk = .ok d ∧ k' = { k with disk := d } := by
  unfold change
  simp only [bind_eq_ok, result_disk, ofExcept_eq_ok]
  constructor
  · rintro ⟨_, _, hdisk, d, _, ⟨hd, rfl⟩, hset⟩
    cases hdisk
    cases hset
    exact ⟨d, hd, rfl⟩
  · rintro ⟨d, hd, rfl⟩
    exact ⟨_, _, rfl, d, _, ⟨hd, rfl⟩, rfl⟩

theorem change_of_ok {g : Disk → Except Fault Disk} {d : Disk} (h : g k.disk = .ok d) :
    (change g).result k = (.ok (), { k with disk := d }) :=
  change_eq_ok.mpr ⟨d, h, rfl⟩

theorem change_of_error {g : Disk → Except Fault Disk} {fault : Fault}
    (h : g k.disk = .error fault) : (change g).result k = (.error (.failed fault), k) := by
  unfold change
  rw [bind_of_ok (result_disk k), h]
  rfl

/-- How writing a text ends where a file can be written: half characters leave the file empty. -/
theorem result_writeText {place : List String}
    (hwrite : ∀ text, k.disk.write place text = .ok (k.disk.put place (.file text)))
    (cs : List Char) : (writeText place cs).result k =
      match Text.firstHalves? 0 cs with
      | none => (.ok (), { k with disk := k.disk.put place (.file (String.ofList cs)) })
      | some (first, last, half) =>
        (.error (.failed (.unencodable first last half)),
          { k with disk := k.disk.put place (.file "") }) := by
  unfold writeText
  rcases Text.firstHalves? 0 cs with _ | ⟨first, last, half⟩
  · exact change_of_ok (hwrite _)
  · exact bind_of_ok (change_of_ok (hwrite ""))

theorem readText_eq_ok {place : List String} {cs : List Char}
    (h : (readText place).result k = (.ok cs, k')) :
    ∃ text, k.disk.read place = .ok text ∧ cs = Text.plainNewlines text.toList ∧ k' = k := by
  unfold readText at h
  obtain ⟨disk, k₁, hdisk, h⟩ := bind_eq_ok.mp h
  cases hdisk
  obtain ⟨text, k₁, hread, h⟩ := bind_eq_ok.mp h
  obtain ⟨htext, rfl⟩ := ofExcept_eq_ok.mp hread
  cases h
  exact ⟨text, htext, rfl, rfl⟩

theorem writeText_eq_ok {place : List String} {cs : List Char} {u : Unit}
    (h : (writeText place cs).result k = (.ok u, k')) :
    k.disk.write place (String.ofList cs) = .ok k'.disk := by
  unfold writeText at h
  split at h
  · obtain ⟨disk, hdisk, rfl⟩ := change_eq_ok.mp h
    exact hdisk
  · obtain ⟨_, k₁, -, h⟩ := bind_eq_ok.mp h
    exact absurd h fail_ne_ok

/-- A view of the desk in which it does not show that a part of it is put in place of another. -/
class Hides {γ δ : Type} (put : Desk → δ → Desk) (view : Desk → γ) : Prop where
  view_put : ∀ k part, view (put k part) = view k

/-- A job that leaves what is seen of the desk in some view as it is, whether it succeeds or not. -/
def Keeps {γ : Type} (view : Desk → γ) (x : Job α) : Prop := ∀ k, view (x.result k).2 = view k

namespace Keeps

variable {γ : Type} {view : Desk → γ}

theorem eq (h : Keeps view x) {r : Except Halt α} (hr : x.result k = (r, k')) :
    view k' = view k := by
  have hk := h k
  rwa [hr] at hk

theorem pure (a : α) : Keeps view (Pure.pure a) := fun _ => rfl

theorem disk : Keeps view Job.disk := fun _ => rfl

theorem fail (fault : Fault) : Keeps view (Job.fail fault : Job α) := fun _ => rfl

theorem exit (code : Int) : Keeps view (Job.exit code : Job α) := fun _ => rfl

theorem exit_bind (code : Int) (f : α → Job β) : Keeps view (Job.exit code >>= f) := fun _ => rfl

theorem ofExcept (r : Except Fault α) : Keeps view (Job.ofExcept r) := by
  cases r with
  | error fault => exact fail fault
  | ok a => exact pure a

theorem bind (hx : Keeps view x) (hf : ∀ a, Keeps view (f a)) : Keeps view (x >>= f) := by
  intro k
  have hk := hx k
  rw [result_bind]
  rcases hr : x.result k with ⟨r, k'⟩
  rw [hr] at hk
  cases r with
  | error halt => exact hk
  | ok a => exact (hf a k').trans hk

theorem ite {c : Prop} [Decidable c] {y : Job α} (hx : Keeps view x) (hy : Keeps view y) :
    Keeps view (if c then x else y) := by
  split
  · exact hx
  · exact hy

theorem forM {g : β → Job Unit} (h : ∀ b, Keeps view (g b)) (bs : List β) :
    Keeps view (bs.forM g) := by
  induction bs with
  | nil => exact pure ()
  | cons b bs ih => exact bind (h b) fun _ => ih

theorem readText (place : List String) : Keeps view (Job.readText place) :=
  bind disk fun _ => bind (ofExcept _) fun _ => pure _

theorem setDisk [Hides Desk.withDisk view] (d : Disk) : Keeps view (Job.setDisk d) :=
  fun k => (Hides.view_put k d : view (k.withDisk d) = view k)

theorem change [Hides Desk.withDisk view] (g : Disk → Except Fault Disk) :
    Keeps view (Job.change g) := bind disk fun _ => bind (ofExcept _) fun _ => setDisk _

theorem print [Hides Desk.withOut view] (line : String) : Keeps view (Job.print line) :=
  fun k => (Hides.view_put k _ : view (k.withOut _) = view k)

theorem record [Hides Desk.withCommands view] (command : Command) :
    Keeps view (Job.record command) :=
  fun k => (Hides.view_put k _ : view (k.withCommands _) = view k)

theorem call [Hides Desk.withCommands view] (sh : Shell) (c : Command) :
    Keeps view (sh.call c) := bind (record c) fun _ => pure _

theorem require [Hides Desk.withCommands view] (sh : Shell) (c : Command) :
    Keeps view (sh.require c) := bind (call sh c) fun _ => ite (pure _) (fail _)

end Keeps

instance : Hides Desk.withOut Desk.disk := ⟨fun _ _ => rfl⟩

instance : Hides Desk.withCommands Desk.disk := ⟨fun _ _ => rfl⟩

/-- A job that leaves the disk as it is. -/
abbrev KeepsDisk (x : Job α) : Prop := Keeps Desk.disk x

/-- What holds at the end of a job, however it ends, if it starts on a given disk. -/
def Ends (x : Job α) (disk : Disk) (Q : Except Halt α → Desk → Prop) : Prop :=
  ∀ k, k.disk = disk → Q (x.result k).1 (x.result k).2

namespace Ends

variable {y : Job β} {disk : Disk} {Q : Except Halt β → Desk → Prop}

theorem at_desk (h : Ends y k.disk Q) : Q (y.result k).1 (y.result k).2 := h k rfl

theorem print_bind {line : String} {g : Unit → Job β} (h : Ends (g ()) disk Q) :
    Ends (Job.print line >>= g) disk Q := fun _ hk => h _ hk

theorem disk_bind {g : Disk → Job β} (h : Ends (g disk) disk Q) : Ends (Job.disk >>= g) disk Q := by
  rintro k rfl
  exact h k rfl

theorem setDisk_bind {d : Disk} {g : Unit → Job β} (h : Ends (g ()) d Q) :
    Ends (Job.setDisk d >>= g) disk Q := fun _ _ => h _ rfl

theorem ofExcept_bind {r : Except Fault α} (hr : r = .ok a) (h : Ends (f a) disk Q) :
    Ends (Job.ofExcept r >>= f) disk Q := by
  intro k hk
  rw [bind_of_ok (ofExcept_eq_ok.mpr ⟨hr, rfl⟩)]
  exact h k hk

theorem ofExcept_bind_cases {r : Except Fault α}
    (hfail : ∀ fault k, r = .error fault → Q (.error (.failed fault)) k)
    (hok : ∀ a, r = .ok a → Ends (f a) disk Q) : Ends (Job.ofExcept r >>= f) disk Q := by
  cases hr : r with
  | error fault => exact fun k _ => hfail fault k hr
  | ok a => exact ofExcept_bind rfl (hok a hr)

theorem change_bind {g : Disk → Except Fault Disk} {f : Unit → Job β}
    (hfail : ∀ halt k, k.disk = disk → Q (.error halt) k)
    (hf : ∀ d, g disk = .ok d → Ends (f ()) d Q) : Ends (Job.change g >>= f) disk Q := by
  rintro k rfl
  cases hg : g k.disk with
  | error fault =>
    rw [bind_of_error (change_of_error hg)]
    exact hfail _ k rfl
  | ok d =>
    rw [bind_of_ok (change_of_ok hg)]
    exact hf d hg _ rfl

theorem change_bind_of_ok {g : Disk → Except Fault Disk} {f : Unit → Job β} {d : Disk}
    (hg : g disk = .ok d) (h : Ends (f ()) d Q) : Ends (Job.change g >>= f) disk Q := by
  rintro k rfl
  rw [bind_of_ok (change_of_ok hg)]
  exact h _ rfl

/-- The rule for a job whose outcomes are known. -/
theorem bind_cases
    (hfail : ∀ k halt k', k.disk = disk → x.result k = (.error halt, k') → Q (.error halt) k')
    (hf : ∀ k a k', k.disk = disk → x.result k = (.ok a, k') →
      Q ((f a).result k').1 ((f a).result k').2) :
    Ends (x >>= f) disk Q := by
  intro k hk
  rw [result_bind]
  rcases hresult : x.result k with ⟨halt | a, k'⟩
  · exact hfail k halt k' hk hresult
  · exact hf k a k' hk hresult

/-- The rule for a job that leaves the disk as it is and of whose end something is known. -/
theorem kept_bind {P : Except Halt α → Prop}
    (hx : Ends x disk fun r k => k.disk = disk ∧ P r)
    (hfail : ∀ halt k, P (.error halt) → k.disk = disk → Q (.error halt) k)
    (hf : ∀ a, P (.ok a) → Ends (f a) disk Q) : Ends (x >>= f) disk Q := by
  apply bind_cases
  · intro k halt k' hk hresult
    obtain ⟨hdisk, hend⟩ := hx k hk
    rw [hresult] at hdisk hend
    exact hfail halt k' hend hdisk
  · intro k a k' hk hresult
    obtain ⟨hdisk, hend⟩ := hx k hk
    rw [hresult] at hdisk hend
    exact hf a hend k' hdisk

theorem keeping_bind (hx : KeepsDisk x) (hfail : ∀ halt k, k.disk = disk → Q (.error halt) k)
    (hf : ∀ a, Ends (f a) disk Q) : Ends (x >>= f) disk Q :=
  bind_cases (fun _ halt k' hk hresult => hfail halt k' ((hx.eq hresult).trans hk))
    fun _ a k' hk hresult => hf a k' ((hx.eq hresult).trans hk)

end Ends

end Job

namespace Keeping

variable {σ α β : Type} {x : Keeping σ α} {f : α → Keeping σ β} {s s' : σ} {k k' : Desk}
  {a : α} {b : β}

theorem result_bind (x : Keeping σ α) (f : α → Keeping σ β) (s : σ) (k : Desk) :
    (x >>= f).result s k =
      match x.result s k with
      | ((.ok a, s'), k') => (f a).result s' k'
      | ((.error halt, s'), k') => ((.error halt, s'), k') := by
  change (ExceptT.bindCont (fun a => f a) (x.result s k).1.1 (x.result s k).1.2).run
    (x.result s k).2 = _
  rcases x.result s k with ⟨⟨r, s'⟩, k'⟩
  cases r <;> rfl

theorem bind_of_ok (h : x.result s k = ((.ok a, s'), k')) :
    (x >>= f).result s k = (f a).result s' k' := by
  rw [result_bind, h]

theorem bind_of_error {halt : Halt} (h : x.result s k = ((.error halt, s'), k')) :
    (x >>= f).result s k = ((.error halt, s'), k') := by
  rw [result_bind, h]

/-- Both parts of a job that succeeds have succeeded. -/
theorem bind_eq_ok : (x >>= f).result s k = ((.ok b, s'), k') ↔
    ∃ a s₁ k₁, x.result s k = ((.ok a, s₁), k₁) ∧ (f a).result s₁ k₁ = ((.ok b, s'), k') := by
  rw [result_bind]
  rcases x.result s k with ⟨⟨r, s₁⟩, k₁⟩
  cases r with
  | error halt => simp
  | ok a =>
    constructor
    · intro h
      exact ⟨a, s₁, k₁, rfl, h⟩
    · rintro ⟨_, _, _, ⟨⟩, h⟩
      exact h

theorem result_tryCatch (x : Keeping σ α) (handle : Halt → Keeping σ α) (s : σ) (k : Desk) :
    (tryCatch x handle).result s k =
      match x.result s k with
      | ((.ok a, s'), k') => ((.ok a, s'), k')
      | ((.error halt, s'), k') => (handle halt).result s' k' := by
  unfold result ExceptT.run StateT.run
  simp only [tryCatch, tryCatchThe, MonadExceptOf.tryCatch, ExceptT.tryCatch, ExceptT.mk, bind,
    StateT.bind]
  rcases x s k with ⟨⟨r, s'⟩, k'⟩
  cases r <;> rfl

@[simp] theorem result_pure (a : α) (s : σ) (k : Desk) :
    (pure a : Keeping σ α).result s k = ((.ok a, s), k) := rfl

theorem result_lift (job : Job α) (s : σ) (k : Desk) :
    (liftM job : Keeping σ α).result s k = (((job.result k).1, s), (job.result k).2) := rfl

theorem lift_eq_ok {job : Job α} :
    (liftM job : Keeping σ α).result s k = ((.ok a, s'), k') ↔
      job.result k = (.ok a, k') ∧ s' = s := by
  rw [result_lift]
  rcases job.result k with ⟨r, k₁⟩
  simp only [Prod.mk.injEq]
  grind

@[simp] theorem result_kept (s : σ) (k : Desk) :
    (kept : Keeping σ σ).result s k = ((.ok s, s), k) := rfl

@[simp] theorem result_keep (s' s : σ) (k : Desk) :
    (keep s').result s k = ((.ok (), s'), k) := rfl

theorem result_startingWith (job : Keeping σ α) (s : σ) (k : Desk) :
    (job.startingWith s).result k = ((job.result s k).1.1, (job.result s k).2) := rfl

theorem ends_startingWith_bind {disk : Disk} {f : α → Job β} {Q : Except Halt β → Desk → Prop}
    (hfail : ∀ k halt s' k', k.disk = disk → x.result s k = ((.error halt, s'), k') →
      Q (.error halt) k')
    (hok : ∀ k a s' k', k.disk = disk → x.result s k = ((.ok a, s'), k') →
      Q ((f a).result k').1 ((f a).result k').2) :
    (x.startingWith s >>= f).Ends disk Q := by
  have hstart {k k' : Desk} {r : Except Halt α} (h : (x.startingWith s).result k = (r, k')) :
      ∃ s', x.result s k = ((r, s'), k') := by
    rw [result_startingWith] at h
    cases h
    exact ⟨_, rfl⟩
  refine Job.Ends.bind_cases (fun k halt k' hk h => ?_) fun k a k' hk h => ?_
  · obtain ⟨s', hs'⟩ := hstart h
    exact hfail k halt s' k' hk hs'
  · obtain ⟨s', hs'⟩ := hstart h
    exact hok k a s' k' hk hs'

theorem result_forM_print (f : String → String) (lines : List String) (s : σ) (k : Desk) :
    ∃ k', (lines.forM fun line => (ofJob (Job.print (f line)) : Keeping σ Unit)).result s k =
      ((.ok (), s), k') ∧ k'.disk = k.disk := by
  induction lines generalizing k with
  | nil => exact ⟨k, rfl, rfl⟩
  | cons line lines ih => exact ih _

end Keeping

/-- A job that leaves the disk as it is and ends in one way, whatever it finds. -/
def Job.EndsWith {α : Type} (x : Job α) (r : Except Halt α) : Prop :=
  ∀ k, ∃ k', x.result k = (r, k') ∧ k'.disk = k.disk

theorem Job.EndsWith.bind_ends {α β : Type} {x : Job α} {f : α → Job β} {r : Except Halt α}
    {disk : Disk} {Q : Except Halt β → Desk → Prop} (hx : x.EndsWith r)
    (herror : ∀ halt, r = .error halt → ∀ k, Q (.error halt) k)
    (hok : ∀ a, r = .ok a → (f a).Ends disk Q) : (x >>= f).Ends disk Q := by
  intro k hk
  obtain ⟨k', hresult, hdisk⟩ := hx k
  cases r with
  | error halt =>
    rw [bind_of_error hresult]
    exact herror halt rfl k'
  | ok a =>
    rw [bind_of_ok hresult]
    exact hok a rfl k' (hdisk.trans hk)

theorem Job.endsWith_forM_print (lines : List String) :
    (lines.forM Job.print).EndsWith (.ok ()) := by
  induction lines with
  | nil => exact fun k => ⟨k, rfl, rfl⟩
  | cons line lines ih => exact fun k => ih _

/-- A job that leaves the disk as it is and whose outcome does not depend on what it finds. -/
def Job.OnlyTells {α : Type} (x : Job α) : Prop := ∃ r, x.EndsWith r

namespace Job.OnlyTells

variable {α β : Type} {x : Job α} {f : α → Job β}

theorem pure (a : α) : OnlyTells (Pure.pure a) := ⟨.ok a, fun k => ⟨k, rfl, rfl⟩⟩

theorem print (line : String) : OnlyTells (Job.print line) := ⟨.ok (), fun _ => ⟨_, rfl, rfl⟩⟩

theorem ofExcept (r : Except Fault α) : OnlyTells (Job.ofExcept r) := by
  cases r with
  | error fault => exact ⟨.error (.failed fault), fun k => ⟨k, rfl, rfl⟩⟩
  | ok a => exact pure a

theorem fail (fault : Fault) : OnlyTells (Job.fail fault : Job α) := ofExcept (.error fault)

theorem exit (code : Int) : OnlyTells (Job.exit code : Job α) :=
  ⟨.error (.exited code), fun k => ⟨k, rfl, rfl⟩⟩

theorem complain (line : String) : OnlyTells (Job.complain line) :=
  ⟨.ok (), fun _ => ⟨_, rfl, rfl⟩⟩

theorem ofHalting (r : Except Halt α) : OnlyTells (Job.ofHalting r) := by
  cases r with
  | error halt => exact ⟨.error halt, fun k => ⟨k, rfl, rfl⟩⟩
  | ok a => exact pure a

theorem bind (hx : OnlyTells x) (hf : ∀ a, OnlyTells (f a)) : OnlyTells (x >>= f) := by
  obtain ⟨r, hr⟩ := hx
  cases r with
  | error halt =>
    refine ⟨.error halt, fun k => ?_⟩
    obtain ⟨k', hk', hdisk⟩ := hr k
    exact ⟨k', bind_of_error hk', hdisk⟩
  | ok a =>
    obtain ⟨r, hfa⟩ := hf a
    refine ⟨r, fun k => ?_⟩
    obtain ⟨k₁, hk₁, hdisk₁⟩ := hr k
    obtain ⟨k', hk', hdisk⟩ := hfa k₁
    exact ⟨k', (bind_of_ok hk₁).trans hk', hdisk.trans hdisk₁⟩

theorem ite {c : Prop} [Decidable c] {y : Job α} (hx : OnlyTells x) (hy : OnlyTells y) :
    OnlyTells (if c then x else y) := by
  split
  · exact hx
  · exact hy

theorem map (g : α → β) (hx : OnlyTells x) : OnlyTells (g <$> x) := by
  rw [map_eq_pure_bind]
  exact bind hx fun a => pure (g a)

theorem mapM {g : α → Job β} (h : ∀ a, OnlyTells (g a)) (as : List α) :
    OnlyTells (as.mapM g) := by
  induction as with
  | nil => exact pure []
  | cons a as ih =>
    rw [List.mapM_cons]
    exact bind (h a) fun _ => bind ih fun _ => pure _

theorem forM {g : β → Job Unit} (h : ∀ b, OnlyTells (g b)) (bs : List β) :
    OnlyTells (bs.forM g) := by
  induction bs with
  | nil => exact pure ()
  | cons b bs ih => exact bind (h b) fun _ => ih

end Job.OnlyTells

/-- The same of a job that remembers something, which it leaves alone where it succeeds. -/
def Keeping.OnlyTells {σ α : Type} (x : Keeping σ α) : Prop :=
  ∃ r, ∀ s k, ∃ s' k', x.result s k = ((r, s'), k') ∧ k'.disk = k.disk ∧ ∀ a, r = .ok a → s' = s

namespace Keeping.OnlyTells

variable {σ α β : Type} {x : Keeping σ α} {f : α → Keeping σ β}

theorem pure (a : α) : OnlyTells (Pure.pure a : Keeping σ α) :=
  ⟨.ok a, fun s k => ⟨s, k, rfl, rfl, fun _ _ => rfl⟩⟩

theorem lift {job : Job α} (h : job.OnlyTells) : OnlyTells (liftM job : Keeping σ α) := by
  obtain ⟨r, hr⟩ := h
  refine ⟨r, fun s k => ?_⟩
  obtain ⟨k', hk', hdisk⟩ := hr k
  exact ⟨s, k', by rw [result_lift, hk'], hdisk, fun _ _ => rfl⟩

theorem bind (hx : OnlyTells x) (hf : ∀ a, OnlyTells (f a)) : OnlyTells (x >>= f) := by
  obtain ⟨r, hr⟩ := hx
  cases r with
  | error halt =>
    refine ⟨.error halt, fun s k => ?_⟩
    obtain ⟨s', k', hk', hdisk, -⟩ := hr s k
    exact ⟨s', k', bind_of_error hk', hdisk, fun _ h => by cases h⟩
  | ok a =>
    obtain ⟨r, hfa⟩ := hf a
    refine ⟨r, fun s k => ?_⟩
    obtain ⟨s₁, k₁, hk₁, hdisk₁, hs₁⟩ := hr s k
    obtain rfl : s₁ = s := hs₁ a rfl
    obtain ⟨s', k', hk', hdisk, hs'⟩ := hfa s₁ k₁
    exact ⟨s', k', (bind_of_ok hk₁).trans hk', hdisk.trans hdisk₁, hs'⟩

theorem ite {c : Prop} [Decidable c] {y : Keeping σ α} (hx : OnlyTells x) (hy : OnlyTells y) :
    OnlyTells (if c then x else y) := by
  split
  · exact hx
  · exact hy

end Keeping.OnlyTells

end DocSite
