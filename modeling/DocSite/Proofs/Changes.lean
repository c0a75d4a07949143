import DocSite.Proofs.Deploy.Commands
import DocSite.Proofs.Walk

/-!
How jobs change the disk. A relation between two disks that is kept by steps is kept by whole jobs,
also by those that fail.
-/

namespace DocSite

namespace Disk

/-- A way in which a disk may change, step after step. -/
class IsChange (R : Disk → Disk → Prop) : Prop where
  refl : ∀ d, R d d
  trans : ∀ {d d' d''}, R d d' → R d' d'' → R d d''

instance (place : List String) : IsChange (SameApart place) := ⟨.refl place, .trans⟩

/-- Files are written anew at some places below a directory. -/
structure Rewritten (above : List String) (places : List (List String)) (d d' : Disk) : Prop where
  same : SameApart above d d'
  other : ∀ q, q ∉ places → d'.fileAt q = d.fileAt q
  kept : ∀ q, (d.fileAt q).isSome → (d'.fileAt q).isSome

instance (above : List String) (places : List (List String)) :
    IsChange (Rewritten above places) where
  refl d := ⟨.refl above d, fun _ _ => rfl, fun _ => id⟩
  trans h h' := ⟨h.same.trans h'.same, fun q hq => (h'.other q hq).trans (h.other q hq),
    fun q hq => h'.kept q (h.kept q hq)⟩

theorem Rewritten.put {above place : List String} {places : List (List String)} (h : place ∈ places)
    (habove : above <+: place) (hne : place ≠ []) (d : Disk) (text : String) :
    Rewritten above places d (d.put place (.file text)) := by
  refine ⟨.put (.inr habove) _, fun q hq => ?_, fun q hq => ?_⟩
  · rw [fileAt_put_file hne, if_neg]
    rintro rfl
    exact hq h
  · rw [fileAt_put_file hne]
    split
    · rfl
    · exact hq

end Disk

namespace Job

variable {α β : Type} {x : Job α} {f : α → Job β} {R : Disk → Disk → Prop} [Disk.IsChange R]
  {place : List String}

/-- A job that changes the disk in a certain way only, whether it succeeds or not, and that gives no
commands. -/
structure Changes (R : Disk → Disk → Prop) (x : Job α) : Prop where
  quiet : Quiet x
  disk : ∀ k, R k.disk (x.result k).2.disk

namespace Changes

omit [Disk.IsChange R] in
theorem of_result (h : Changes R x) {k k' : Desk} {r : Except Halt α} (hr : x.result k = (r, k')) :
    R k.disk k'.disk := by
  have hk := h.disk k
  rwa [hr] at hk

theorem of_keeps (hquiet : Quiet x) (hdisk : KeepsDisk x) : Changes R x := by
  refine ⟨hquiet, fun k => ?_⟩
  rw [hdisk k]
  exact Disk.IsChange.refl k.disk

theorem pure (a : α) : Changes R (Pure.pure a) := of_keeps (.pure a) (.pure a)

theorem print (line : String) : Changes R (Job.print line) := of_keeps (.print line) (.print line)

theorem getDisk : Changes R Job.disk := of_keeps .disk .disk

theorem fail (fault : Fault) : Changes R (Job.fail fault : Job α) :=
  of_keeps (.fail fault) (.fail fault)

theorem fail_bind (fault : Fault) (f : α → Job β) : Changes R (Job.fail fault >>= f) :=
  of_keeps (fun _ => rfl) fun _ => rfl

theorem ofExcept (r : Except Fault α) : Changes R (Job.ofExcept r) :=
  of_keeps (.ofExcept r) (.ofExcept r)

theorem readText (place : List String) : Changes R (Job.readText place) :=
  of_keeps (.readText place) (.readText place)

theorem bind (hx : Changes R x) (hf : ∀ a, Changes R (f a)) : Changes R (x >>= f) := by
  refine ⟨hx.quiet.bind fun a => (hf a).quiet, fun k => ?_⟩
  rw [result_bind]
  rcases hresult : x.result k with ⟨halt | a, k₁⟩
  · exact hx.of_result hresult
  · exact Disk.IsChange.trans (hx.of_result hresult) ((hf a).disk k₁)

theorem forM {g : β → Job Unit} {bs : List β} (h : ∀ b ∈ bs, Changes R (g b)) :
    Changes R (bs.forM g) := by
  induction bs with
  | nil => exact pure ()
  | cons b bs ih =>
    obtain ⟨hb, hbs⟩ := List.forall_mem_cons.mp h
    exact bind hb fun _ => ih hbs

theorem change {g : Disk → Except Fault Disk} (h : ∀ d d', g d = .ok d' → R d d') :
    Changes R (Job.change g) := by
  refine ⟨.change g, fun k => ?_⟩
  cases hg : g k.disk with
  | error fault =>
    rw [change_of_error hg]
    exact Disk.IsChange.refl k.disk
  | ok d =>
    rw [change_of_ok hg]
    exact h k.disk d hg

theorem write {text : String} (h : ∀ d : Disk, R d (d.put place (.file text))) :
    Changes R (Job.change (·.write place text)) := by
  refine change fun d d' hd => ?_
  rw [Disk.write_eq_ok hd]
  exact h d

theorem makeDir (h : ∀ d : Disk, R d (d.fill place)) :
    Changes R (Job.change (·.makeDir place)) := by
  refine change fun d d' hd => ?_
  rw [Disk.makeDir_eq_ok hd]
  exact h d

theorem writeText (h : ∀ (d : Disk) (text : String), R d (d.put place (.file text)))
    (cs : List Char) : Changes R (Job.writeText place cs) := by
  unfold Job.writeText
  split
  · exact write fun d => h d _
  · exact bind (write fun d => h d _) fun _ => fail _

end Changes

/-- A job whose end and whose changes of the disk depend on the disk only. -/
def Sees (x : Job α) : Prop := ∀ k k', k.disk = k'.disk →
  (x.result k).1 = (x.result k').1 ∧ (x.result k).2.disk = (x.result k').2.disk

namespace Sees

theorem pure (a : α) : Sees (Pure.pure a) := fun _ _ h => ⟨rfl, h⟩

theorem ofExcept (r : Except Fault α) : Sees (Job.ofExcept r) := by
  cases r with
  | error fault => exact fun _ _ h => ⟨rfl, h⟩
  | ok a => exact pure a

theorem disk_bind {g : Disk → Job β} (h : ∀ d, Sees (g d)) : Sees (Job.disk >>= g) := by
  intro k k' hk
  rw [bind_of_ok (result_disk k), bind_of_ok (result_disk k'), hk]
  exact h k'.disk k k' hk

theorem bind (hx : Sees x) (hf : ∀ a, Sees (f a)) : Sees (x >>= f) := by
  intro k k' hk
  obtain ⟨hend, hdisk⟩ := hx k k' hk
  rw [result_bind, result_bind]
  revert hend hdisk
  rcases x.result k with ⟨r, k₁⟩
  rcases x.result k' with ⟨r', k₁'⟩
  rintro ⟨⟩ hdisk
  cases r with
  | error halt => exact ⟨rfl, hdisk⟩
  | ok a => exact hf a k₁ k₁' hdisk

theorem change (g : Disk → Except Fault Disk) : Sees (Job.change g) :=
  disk_bind fun _ => bind (ofExcept _) fun _ _ _ _ => ⟨rfl, rfl⟩

theorem readText (place : List String) : Sees (Job.readText place) :=
  disk_bind fun _ => bind (ofExcept _) fun _ => pure _

theorem writeText (place : List String) (cs : List Char) : Sees (Job.writeText place cs) := by
  unfold Job.writeText
  split
  · exact change _
  · exact bind (change _) fun _ _ _ h => ⟨rfl, h⟩

end Sees

theorem result_of_toOption {k : Desk} {a : α} (h : (x.result k).1.toOption = some a) :
    x.result k = (.ok a, (x.result k).2) :=
  Prod.ext (Attempt.eq_ok_of_toOption h) rfl

end Job

end DocSite
