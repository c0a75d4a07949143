import DocSite.Proofs.Navigation.Update

namespace DocSite

/-- What holds of every fault that an attempt can end with. -/
def Attempt.FailsWith {ε α : Type} (P : ε → Prop) (x : Except ε α) : Prop := ∀ e, x = .error e → P e

namespace Attempt.FailsWith

variable {ε α β : Type} {P : ε → Prop} {x y : Except ε α} {f : α → Except ε β}

theorem ok (a : α) : FailsWith P (.ok a : Except ε α) := fun _ h => by cases h

theorem error {e : ε} (h : P e) : FailsWith P (.error e : Except ε α) := fun _ h' => by
  cases h'
  exact h

theorem bind (hx : FailsWith P x) (hf : ∀ a, FailsWith P (f a)) : FailsWith P (x >>= f) := by
  intro e h
  cases x with
  | error e' => exact hx e (congrArg Except.error (Except.error.inj h))
  | ok a => exact hf a e h

theorem ite {c : Prop} [Decidable c] (hx : FailsWith P x) (hy : FailsWith P y) :
    FailsWith P (if c then x else y) := by
  split
  · exact hx
  · exact hy

theorem when {c : Prop} [Decidable c] {x : Except ε Unit} {f : Unit → Except ε β}
    (hx : FailsWith P x) (hf : ∀ u, FailsWith P (f u)) :
    FailsWith P (if c then x >>= f else f ()) := by
  split
  · exact bind hx hf
  · exact hf ()

theorem mapM (h : ∀ a, FailsWith P (f a)) (as : List α) : FailsWith P (as.mapM f) := by
  induction as with
  | nil => exact ok []
  | cons a as ih =>
    rw [List.mapM_cons]
    exact bind (h a) fun _ => bind ih fun _ => ok _

theorem filterAuxM {g : α → Except ε Bool} (h : ∀ a, FailsWith P (g a)) (as acc : List α) :
    FailsWith P (List.filterAuxM g as acc) := by
  induction as generalizing acc with
  | nil => exact ok acc
  | cons a as ih => exact bind (h a) fun _ => ih _

theorem filterM {g : α → Except ε Bool} (h : ∀ a, FailsWith P (g a)) (as : List α) :
    FailsWith P (as.filterM g) :=
  bind (filterAuxM h as []) fun _ => ok _

end Attempt.FailsWith

/-- A fault whose text ends otherwise than the name of the configuration file, `docs.json`. -/
def Fault.EndsApart (e : Fault) : Prop := e.message.toList.getLast? ≠ some 'n'

instance (e : Fault) : Decidable e.EndsApart :=
  inferInstanceAs (Decidable (e.message.toList.getLast? ≠ some 'n'))

namespace Fault.EndsApart

variable {e : Fault}

theorem of_append {c : Char} {s t : String} (hmessage : e.message = s ++ t)
    (ht : t.toList.getLast? = some c) (hc : c ≠ 'n') : e.EndsApart := by
  rw [EndsApart, hmessage, String.toList_append, List.getLast?_append, ht]
  simpa using hc

theorem of_written {cs : List Char} (hmessage : e.message = String.ofList cs)
    (h : cs.getLast? ≠ some 'n') : e.EndsApart := by
  rwa [EndsApart, hmessage, String.toList_ofList]

theorem noAttribute (owner member : String) : EndsApart (.noAttribute owner member) :=
  of_append rfl (t := "'") rfl (by decide)

theorem noKey (key : String) : EndsApart (.noKey key) := of_append rfl (t := "'") rfl (by decide)

theorem wrongKind {c : Char} {s : String} {cs : List Char} (hcs : cs.getLast? = some c)
    (hc : c ≠ 'n') : EndsApart (.wrongKind (s ++ String.ofList cs)) :=
  of_append rfl (Text.apply_ofList (f := List.getLast?) hcs) hc

theorem quoted (s path : String) (hmessage : e.message = s ++ Literal.quotedText path) :
    e.EndsApart := by
  have hquote : (Literal.quotedText path).toList.getLast? =
      some (Literal.quoteFor path.toList) := by
    rw [Literal.quotedText, String.toList_ofList, Literal.quoted, List.getLast?_append]
    rfl
  refine of_append hmessage hquote ?_
  unfold Literal.quoteFor
  split <;> decide

end Fault.EndsApart

namespace Json

open Attempt Fault

variable (key : String) (v w : Json)

theorem failsWith_get : FailsWith EndsApart (v.get key w) := by
  cases v with
  | obj fields => exact .ok _
  | _ => exact .error (.noAttribute _ _)

theorem failsWith_item : FailsWith EndsApart (v.item key) := by
  cases v with
  | obj fields =>
    rw [item]
    split
    · exact .ok _
    · exact .error (.noKey key)
  | arr items => exact .error (.of_written rfl (by decide))
  | str s => exact .error (.of_written rfl (by decide))
  | _ => exact .error (.wrongKind rfl (by decide))

theorem failsWith_has : FailsWith EndsApart (v.has key) := by
  cases v with
  | obj fields => exact .ok _
  | arr items => exact .ok _
  | str s => exact .ok _
  | _ => exact .error (.wrongKind rfl (by decide))

theorem failsWith_each : FailsWith EndsApart v.each := by
  cases v with
  | obj fields => exact .ok _
  | arr items => exact .ok _
  | str s => exact .ok _
  | _ => exact .error (.wrongKind rfl (by decide))

theorem failsWith_put : FailsWith EndsApart (v.put key w) := by
  cases v with
  | obj fields => exact .ok _
  | arr items => exact .error (.of_written rfl (by decide))
  | _ =>
    exact .error (.wrongKind rfl (by decide))

theorem failsWith_size : FailsWith EndsApart v.size := by
  cases v with
  | obj fields => exact .ok _
  | arr items => exact .ok _
  | str s => exact .ok _
  | _ => exact .error (.wrongKind rfl (by decide))

theorem failsWith_text (operation : String) : FailsWith EndsApart (v.text operation) := by
  cases v with
  | str s => exact .ok _
  | _ => exact .error (.noAttribute _ _)

end Json

namespace Navigation

open Attempt Fault Json Edit

theorem failsWith_ensureTabs (docs : Json) : FailsWith EndsApart (ensureTabs docs) := by
  refine .bind (failsWith_has _ _) fun found => .ite (failsWith_put _ _ _) ?_
  refine .bind (failsWith_item _ _) fun navigation => .bind (failsWith_has _ _) fun _ => ?_
  exact .ite (.ok _) (.bind (failsWith_put _ _ _) fun _ => failsWith_put _ _ _)

theorem failsWith_tabsOf (docs : Json) : FailsWith EndsApart (tabsOf docs) :=
  .bind (failsWith_item _ _) fun _ => failsWith_item _ _

theorem failsWith_setTabs (tabs : List Json) (docs : Json) :
    FailsWith EndsApart (setTabs tabs docs) :=
  .bind (failsWith_item _ _) fun _ => .bind (failsWith_put _ _ _) fun _ => failsWith_put _ _ _

theorem failsWith_firstOf (v : Json) : FailsWith EndsApart (firstOf v) := by
  cases v with
  | arr items =>
    cases items with
    | nil => exact .error (.of_written rfl (by decide))
    | cons v vs => exact .ok v
  | str s =>
    rw [firstOf]
    split
    · exact .ok _
    · exact .error (.of_written rfl (by decide))
  | obj fields => exact .error (.noKey _)
  | _ => exact .error (.wrongKind rfl (by decide))

theorem failsWith_replaceVersion (version label : Json) (versions : List Json) :
    FailsWith EndsApart (replaceVersion version label versions) :=
  .bind (.filterM (fun _ => .bind (failsWith_get _ _ _) fun _ => .ok _) _) fun _ => .ok _

theorem failsWith_sortVersions (versions : List Json) :
    FailsWith EndsApart (sortVersions versions) := by
  have hkey (entry : Json) : FailsWith EndsApart (entryKey entry) :=
    .bind (failsWith_get _ _ _) fun _ => .bind (failsWith_text _ _) fun _ => .ok _
  exact .bind (.mapM (fun entry => .bind (hkey entry) fun _ => .ok _) _) fun _ => .ok _

theorem failsWith_findTab (name : String) (tabs : List Json) :
    FailsWith EndsApart (findTab name tabs) := by
  induction tabs with
  | nil => exact .ok none
  | cons tab tabs ih =>
    exact .bind (failsWith_get _ _ _) fun _ => .ite (.ok _) (.bind ih fun _ => .ok _)

theorem failsWith_bothVersioned (tab nav : Json) : FailsWith EndsApart (bothVersioned tab nav) :=
  .bind (failsWith_has _ _) fun _ => .ite (failsWith_has _ _) (.ok _)

/-- What holds of every fault that an edit can end with. -/
def Edit.FailsWith {α : Type} (P : Fault → Prop) (x : Edit α) : Prop :=
  ∀ d, Attempt.FailsWith P (x.runOn d).1

namespace Edit.FailsWith

variable {α β : Type} {P : Fault → Prop} {x : Edit α} {f : α → Edit β}

theorem bind (hx : FailsWith P x) (hf : ∀ a, FailsWith P (f a)) : FailsWith P (x >>= f) := by
  intro d
  have hd := hx d
  rw [runOn_bind]
  rcases hrun : runOn x d with ⟨e | a, d'⟩
  · rw [hrun] at hd
    exact .error (hd e rfl)
  · exact hf a d'

theorem lift {r : Except Fault α} (h : Attempt.FailsWith P r) : FailsWith P (liftM r : Edit α) :=
  fun _ => h

theorem docs : FailsWith P Edit.docs := fun _ => .ok _

theorem setDocs (v : Json) : FailsWith P (Edit.setDocs v) := fun _ => .ok _

theorem tell (line : String) : FailsWith P (Edit.tell line) := fun _ => .ok _

theorem throw {e : Fault} (h : P e) : FailsWith P (MonadExcept.throw e : Edit α) :=
  fun _ => .error h

theorem ite {c : Prop} [Decidable c] {y : Edit α} (hx : FailsWith P x) (hy : FailsWith P y) :
    FailsWith P (if c then x else y) := by
  split
  · exact hx
  · exact hy

theorem when {c : Prop} [Decidable c] {x : Edit Unit} {f : Unit → Edit β} (hx : FailsWith P x)
    (hf : ∀ u, FailsWith P (f u)) : FailsWith P (if c then x >>= f else f ()) := by
  split
  · exact bind hx hf
  · exact hf ()

end Edit.FailsWith

theorem failsWith_addVersion (before : List Json) (tab : Json) (after : List Json) (nav : Json) :
    Edit.FailsWith EndsApart (addVersion before tab after nav) := by
  unfold addVersion
  refine .bind (.lift (failsWith_item _ _)) fun _ => .bind (.lift (failsWith_firstOf _)) fun _ => ?_
  refine .bind (.lift (failsWith_item _ _)) fun _ => .bind (.lift (failsWith_item _ _)) fun _ => ?_
  refine .bind (.lift (failsWith_each _)) fun _ => ?_
  refine .bind (.lift (failsWith_replaceVersion _ _ _)) fun _ => ?_
  refine .bind (.lift (failsWith_size _)) fun _ => .when (.tell _) fun _ => ?_
  refine .bind (.tell _) fun _ => .bind (.lift (failsWith_sortVersions _)) fun _ => ?_
  refine .bind (.lift (failsWith_put _ _ _)) fun _ => .bind .docs fun _ => ?_
  refine .bind (.lift (failsWith_setTabs _ _)) fun _ => .bind (.setDocs _) fun _ => ?_
  refine .bind (.lift (failsWith_item _ _)) fun _ => .bind (.lift (failsWith_put _ _ _)) fun _ => ?_
  exact .bind .docs fun _ => .bind (.lift (failsWith_setTabs _ _)) fun _ => .setDocs _

theorem failsWith_place (name : String) (nav : Json) :
    Edit.FailsWith EndsApart (place name nav) := by
  unfold place
  refine .bind .docs fun _ => .bind (.lift (failsWith_tabsOf _)) fun tabs => ?_
  refine .bind (.lift (failsWith_each _)) fun _ => ?_
  refine .bind (.lift (failsWith_findTab _ _)) fun found => ?_
  cases found with
  | some found =>
    refine .bind (.lift (failsWith_bothVersioned _ _)) fun _ =>
      .ite (failsWith_addVersion _ _ _ _) ?_
    refine .bind (.lift (failsWith_get _ _ _)) fun _ => .bind (.tell _) fun _ => ?_
    exact .bind .docs fun _ => .bind (.lift (failsWith_setTabs _ _)) fun _ => .setDocs _
  | none =>
    refine .bind (.tell _) fun _ => ?_
    cases tabs with
    | arr items =>
      exact .bind .docs fun _ => .bind (.lift (failsWith_setTabs _ _)) fun _ => .setDocs _
    | _ => exact .throw (.noAttribute _ _)

theorem failsWith_update (name : String) (nav : Json) :
    Edit.FailsWith EndsApart (update name nav) := by
  unfold update
  refine .bind .docs fun _ => .when (.throw (.of_written rfl (by decide))) fun _ => ?_
  refine .bind .docs fun _ => ?_
  refine .bind (.lift (failsWith_ensureTabs _)) fun _ => .bind (.setDocs _) fun _ => ?_
  exact failsWith_place name nav

end Navigation

end DocSite
