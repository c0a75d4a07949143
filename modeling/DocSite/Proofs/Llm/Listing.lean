import DocSite.Llm.Listing
import DocSite.Proofs.Text

/-!
What the listing of a public interface has. The objects that a page names are told apart as
functions, classes and column types. An object that is none of these, such as a function over
columns, goes to no list.
-/

namespace DocSite.Llm

open Api Outline

/-- The lists that objects go to. -/
inductive Shelf
  | functions
  | classes
  | types
  deriving DecidableEq, Repr

def Listing.on (l : Listing) : Shelf → List String
  | .functions => l.functions
  | .classes => l.classes
  | .types => l.types

namespace Listed

variable {α : Type} {x : Listed Unit} {f : Unit → Listed Unit} {l l' : Listing}
  {ok ok' : Prop} {R S : Shelf → String → Prop}

/-- How work ends that starts with some things listed, and what is listed then. -/
def after (work : Listed α) (l : Listing) : Except Fault α × Listing := (ExceptT.run work).run l

theorem after_bind (x : Listed Unit) (f : Unit → Listed Unit) (l : Listing) :
    (x >>= f).after l =
      match x.after l with
      | (.ok u, l') => (f u).after l'
      | (.error fault, l') => (.error fault, l') := by
  change (ExceptT.bindCont (fun u => f u) (x.after l).1).run (x.after l).2 = _
  rcases x.after l with ⟨fault | u, l'⟩ <;> rfl

/-- Work that succeeds under a condition, whatever was listed before, and puts certain paths on the
lists then. -/
structure Puts (x : Listed Unit) (ok : Prop) (R : Shelf → String → Prop) : Prop where
  ends : ∀ l, (∃ l', x.after l = (.ok (), l')) ↔ ok
  puts : ∀ l l', x.after l = (.ok (), l') → ∀ s path, path ∈ l'.on s ↔ path ∈ l.on s ∨ R s path

namespace Puts

theorem congr (h : Puts x ok R) (hok : ok ↔ ok') (hR : ∀ s path, R s path ↔ S s path) :
    Puts x ok' S :=
  ⟨fun l => (h.ends l).trans hok, fun l l' hl s path => by rw [h.puts l l' hl, hR]⟩

theorem pure : Puts (Pure.pure ()) True fun _ _ => False := by
  refine ⟨fun l => iff_of_true ⟨l, rfl⟩ trivial, ?_⟩
  rintro l l' ⟨⟩ s path
  exact (or_false _).symm.to_iff

theorem fails (fault : Fault) (h : ¬ok) : Puts (throw fault) ok R := by
  refine ⟨fun l => iff_of_false ?_ h, nofun⟩
  rintro ⟨l', ⟨⟩⟩

theorem changed {g : Listing → Listing}
    (h : ∀ l s path, path ∈ (g l).on s ↔ path ∈ l.on s ∨ R s path) : Puts (modify g) True R := by
  refine ⟨fun l => iff_of_true ⟨g l, rfl⟩ trivial, ?_⟩
  rintro l l' ⟨⟩ s path
  exact h l s path

theorem bind (hx : Puts x ok R) (hf : Puts (f ()) ok' S) :
    Puts (x >>= f) (ok ∧ ok') fun s path => R s path ∨ S s path := by
  have hboth (l l'' : Listing) : (x >>= f).after l = (.ok (), l'') ↔
      ∃ l', x.after l = (.ok (), l') ∧ (f ()).after l' = (.ok (), l'') := by
    rw [after_bind]
    rcases x.after l with ⟨fault | u, l'⟩
    · simp
    · simp
  constructor
  · intro l
    simp only [hboth, ← hx.ends l]
    constructor
    · rintro ⟨l'', l', hfirst, hsecond⟩
      exact ⟨⟨l', hfirst⟩, (hf.ends l').mp ⟨l'', hsecond⟩⟩
    · rintro ⟨⟨l', hfirst⟩, hok⟩
      obtain ⟨l'', hsecond⟩ := (hf.ends l').mpr hok
      exact ⟨l'', l', hfirst, hsecond⟩
  · intro l l'' h s path
    obtain ⟨l', hfirst, hsecond⟩ := (hboth l l'').mp h
    rw [hf.puts l' l'' hsecond, hx.puts l l' hfirst, or_assoc]

theorem of_ok {g : Bool → Listed Unit} {b : Bool} (h : Puts (g b) ok R) :
    Puts (liftM (Except.ok b : Except Fault Bool) >>= g) ok R := h

theorem of_error (fault : Fault) (g : Bool → Listed Unit) (h : ¬ok) :
    Puts (liftM (Except.error fault : Except Fault Bool) >>= g) ok R := fails fault h

theorem forM {β : Type} {g : β → Listed Unit} {ok : β → Prop} {R : β → Shelf → String → Prop}
    (h : ∀ b, Puts (g b) (ok b) (R b)) (bs : List β) :
    Puts (bs.forM g) (∀ b ∈ bs, ok b) fun s path => ∃ b ∈ bs, R b s path := by
  induction bs with
  | nil => exact pure.congr (by simp) (by simp)
  | cons b bs ih =>
    exact (bind (h b) ih).congr List.forall_mem_cons.symm fun s path => by simp

end Puts

end Listed

section Step

variable {w : World} {path : String}

/-- The list that an object goes to. -/
def shelfOf? : Entity → Option Shelf
  | .cls info _ =>
    match isColumnType info with
    | .ok true => some .types
    | _ => some .classes
  | e => if e.isFunction then some .functions else none

/-- Where the object at a path goes. -/
def Goes (w : World) (path : String) (s : Shelf) : Prop :=
  match w.load (parentPath path) with
  | .error _ => s = .functions
  | .ok m => ∃ e, m.get? (lastPart path) = some e ∧ shelfOf? e = some s

/-- The module at a path can be loaded or is not there. -/
def IsWritten (w : World) (path : String) : Prop :=
  ∀ fault, w.load path = .error fault → ∃ detail, fault = .noModule detail

/-- Whether it can be told where the object at a path goes: a class that has no name of a column
type must say where it is from. -/
def CanTell (w : World) (path : String) : Prop :=
  IsWritten w (parentPath path) ∧ ∀ m info layers, w.load (parentPath path) = .ok m →
    m.get? (lastPart path) = some (.cls info layers) →
      info.name ∈ typeNames ∨ info.module?.isSome = true

theorem isColumnType_eq_ok {info : ClassInfo} : (∃ isType, isColumnType info = .ok isType) ↔
    info.name ∈ typeNames ∨ info.module?.isSome := by
  unfold isColumnType
  by_cases hname : typeNames.contains info.name = true
  · rw [if_pos hname]
    simpa using Or.inl (List.contains_iff_mem.mp hname)
  · rw [if_neg hname]
    have hnot : info.name ∉ typeNames := fun hmem => hname (List.contains_iff_mem.mpr hmem)
    cases info.module? <;> simp [hnot]

theorem on_foldl_addMethod (path : String) (names : List String) (l : Listing) (s : Shelf) :
    (names.foldl (fun l n => if l.methods.contains (path ++ "." ++ n) then l
      else l.addMethod (path ++ "." ++ n)) l).on s = l.on s := by
  induction names generalizing l with
  | nil => rfl
  | cons n names ih =>
    rw [List.foldl_cons, ih]
    split
    · rfl
    · cases s <;> rfl

theorem isWritten_of_ok {m : Module} (h : w.load path = .ok m) : IsWritten w path := by
  intro fault hfault
  cases h.symm.trans hfault

theorem isWritten_of_noModule {detail : String} (h : w.load path = .error (.noModule detail)) :
    IsWritten w path := by
  intro fault hfault
  cases h.symm.trans hfault
  exact ⟨detail, rfl⟩

theorem puts_listMethods (w : World) (path : String) :
    (listMethods w path).Puts (IsWritten w (parentPath path)) fun _ _ => False := by
  unfold listMethods
  split
  · rename_i detail hload
    exact .congr .pure (iff_of_true trivial (isWritten_of_noModule hload)) fun _ _ => Iff.rfl
  · rename_i fault hother hload
    refine .fails fault fun h => ?_
    obtain ⟨detail, rfl⟩ := h fault hload
    exact hother detail rfl
  · rename_i m hload
    have hwritten : True ↔ IsWritten w (parentPath path) :=
      iff_of_true trivial (isWritten_of_ok hload)
    split
    · refine .congr (.changed fun l s q => ?_) hwritten fun _ _ => Iff.rfl
      rw [on_foldl_addMethod, or_false]
    · exact .congr .pure hwritten fun _ _ => Iff.rfl

theorem goes_iff {m : Module} {e : Entity} (hload : w.load (parentPath path) = .ok m)
    (hget : m.get? (lastPart path) = some e) (s : Shelf) : Goes w path s ↔ shelfOf? e = some s := by
  unfold Goes
  rw [hload]
  simp [hget]

theorem canTell_iff {m : Module} {e : Entity} (hload : w.load (parentPath path) = .ok m)
    (hget : m.get? (lastPart path) = some e) :
    CanTell w path ↔ ∀ info layers, e = .cls info layers →
      ∃ isType, isColumnType info = .ok isType := by
  simp only [isColumnType_eq_ok]
  constructor
  · rintro ⟨-, htell⟩ info layers rfl
    exact htell m info layers hload hget
  · intro htell
    refine ⟨isWritten_of_ok hload, fun m' info layers hm hcls => ?_⟩
    cases hload.symm.trans hm
    exact htell info layers (Option.some.inj (hget.symm.trans hcls))

theorem puts_added {g : Listing → String → Listing} {s : Shelf}
    (h : ∀ l t, (g l path).on t = if t = s then l.on t ++ [path] else l.on t) :
    Listed.Puts (modify (g · path)) True fun t q => q = path ∧ t = s := by
  refine .changed fun l t q => ?_
  rw [h]
  by_cases ht : t = s <;> simp [ht]

theorem puts_addFunction (path : String) : Listed.Puts (modify (·.addFunction path)) True
    fun s q => q = path ∧ s = .functions := puts_added fun _ s => by cases s <;> rfl

theorem puts_addClass (path : String) : Listed.Puts (modify (·.addClass path)) True
    fun s q => q = path ∧ s = .classes := puts_added fun _ s => by cases s <;> rfl

theorem puts_addType (path : String) : Listed.Puts (modify (·.addType path)) True
    fun s q => q = path ∧ s = .types := puts_added fun _ s => by cases s <;> rfl

theorem puts_listChild (w : World) (path : String) :
    (listChild w path).Puts (CanTell w path) fun s q => q = path ∧ Goes w path s := by
  unfold listChild
  split
  · rename_i detail hload
    refine (puts_addFunction path).congr (iff_of_true trivial ⟨isWritten_of_noModule hload, ?_⟩)
      fun s q => by unfold Goes; rw [hload]
    intro m info layers hm
    cases hload.symm.trans hm
  · rename_i fault hother hload
    refine .fails fault fun h => ?_
    obtain ⟨detail, rfl⟩ := h.1 fault hload
    exact hother detail rfl
  · rename_i m hload
    split
    · rename_i info layers hget
      cases htype : isColumnType info with
      | error fault =>
        refine .of_error fault _ fun htell => ?_
        obtain ⟨isType, hok⟩ := (canTell_iff hload hget).mp htell info layers rfl
        cases htype.symm.trans hok
      | ok isType =>
        have htell : CanTell w path := by
          refine (canTell_iff hload hget).mpr ?_
          rintro _ _ ⟨⟩
          exact ⟨isType, htype⟩
        refine .of_ok ?_
        cases isType with
        | true =>
          refine (puts_addType path).congr (iff_of_true trivial htell) fun s q => ?_
          simp [goes_iff hload hget, shelfOf?, htype, eq_comm]
        | false =>
          refine ((puts_addClass path).bind (puts_listMethods w path)).congr
            (iff_of_true ⟨trivial, htell.1⟩ htell) fun s q => ?_
          simp [goes_iff hload hget, shelfOf?, htype, eq_comm]
    · rename_i e hother hget
      have htell : CanTell w path :=
        (canTell_iff hload hget).mpr fun info layers hcls => absurd hcls (hother info layers)
      have hshelf : shelfOf? e = if e.isFunction then some .functions else none := by
        cases e with
        | cls info layers => exact absurd rfl (hother info layers)
        | _ => rfl
      split
      · rename_i hfunction
        refine (puts_addFunction path).congr (iff_of_true trivial htell) fun s q => ?_
        simp [goes_iff hload hget, hshelf, hfunction, eq_comm]
      · rename_i hfunction
        refine .congr .pure (iff_of_true trivial htell) fun s q => ?_
        simp [goes_iff hload hget, hshelf, hfunction]
    · rename_i hget
      refine .congr .pure (iff_of_true trivial ⟨isWritten_of_ok hload, ?_⟩) fun s q => ?_
      · intro m' info layers hm hcls
        cases hload.symm.trans hm
        cases hget.symm.trans hcls
      · unfold Goes
        rw [hload]
        simp [hget]

end Step

-- Where the object at a path goes is looked up by `goes_iff`, and not by evaluation.
attribute [local irreducible] Goes

section Run

variable {w : World} {p : PageItem}

/-- The names that the page of a module stands for: those it lists, or else all public ones. -/
def childNames (w : World) (p : PageItem) : List String :=
  if (p.children?.getD []).isEmpty then
    match w.load p.path with
    | .ok m => m.names.filter fun n => !n.startsWith "_"
    | .error _ => []
  else p.children?.getD []

/-- What a page puts on the lists. -/
inductive Shows (w : World) (p : PageItem) : Shelf → String → Prop
  | func (h : p.kind = "func") : Shows w p .functions p.path
  | type (h : p.kind = "type") : Shows w p .types p.path
  | cls (h : p.kind = "class") : Shows w p .classes p.path
  | child {c : String} {s : Shelf} (h : p.kind = "module") (hc : c ∈ childNames w p)
      (hs : Goes w (p.path ++ "." ++ c) s) : Shows w p s (p.path ++ "." ++ c)

/-- Whether a page can be listed. -/
def CanList (w : World) (p : PageItem) : Prop :=
  (p.kind = "class" → p.children?.getD [] = [] → IsWritten w (parentPath p.path)) ∧
    (p.kind = "module" → (p.children?.getD [] = [] → IsWritten w p.path) ∧
      ∀ c ∈ childNames w p, CanTell w (p.path ++ "." ++ c))

theorem shows_iff {s : Shelf} {path : String} : Shows w p s path ↔
    p.kind = "func" ∧ path = p.path ∧ s = .functions ∨
      p.kind = "type" ∧ path = p.path ∧ s = .types ∨
      p.kind = "class" ∧ path = p.path ∧ s = .classes ∨
      p.kind = "module" ∧ ∃ c ∈ childNames w p, path = p.path ++ "." ++ c ∧
        Goes w (p.path ++ "." ++ c) s := by
  constructor
  · rintro (h | h | h | ⟨h, hc, hs⟩)
    · exact .inl ⟨h, rfl, rfl⟩
    · exact .inr (.inl ⟨h, rfl, rfl⟩)
    · exact .inr (.inr (.inl ⟨h, rfl, rfl⟩))
    · exact .inr (.inr (.inr ⟨h, _, hc, rfl, hs⟩))
  · rintro (⟨h, rfl, rfl⟩ | ⟨h, rfl, rfl⟩ | ⟨h, rfl, rfl⟩ | ⟨h, c, hc, rfl, hs⟩)
    · exact .func h
    · exact .type h
    · exact .cls h
    · exact .child h hc hs

theorem puts_children (w : World) (path : String) (names : List String) :
    Listed.Puts (names.forM fun c => listChild w (path ++ "." ++ c))
      (∀ c ∈ names, CanTell w (path ++ "." ++ c)) fun s q => ∃ c ∈ names, q = path ++ "." ++ c ∧
        Goes w (path ++ "." ++ c) s :=
  .forM (fun c => puts_listChild w (path ++ "." ++ c)) names

theorem on_foldl_addChild (path : String) (names : List String) (l : Listing) (s : Shelf) :
    (names.foldl (fun l c => l.addMethod (path ++ "." ++ c)) l).on s = l.on s := by
  induction names generalizing l with
  | nil => rfl
  | cons n names ih =>
    rw [List.foldl_cons, ih]
    cases s <;> rfl

theorem puts_listModule (h : p.children?.getD [] = []) : (listModule w p.path).Puts
    (IsWritten w p.path ∧ ∀ c ∈ childNames w p, CanTell w (p.path ++ "." ++ c))
    fun s q => ∃ c ∈ childNames w p, q = p.path ++ "." ++ c ∧ Goes w (p.path ++ "." ++ c) s := by
  have hnames : childNames w p = match w.load p.path with
      | .ok m => m.names.filter fun n => !n.startsWith "_"
      | .error _ => [] := by
    rw [childNames, h]
    rfl
  rw [hnames]
  unfold listModule
  split
  · rename_i detail hload
    refine .congr .pure (iff_of_true trivial ⟨isWritten_of_noModule hload, ?_⟩) ?_
    all_goals simp [hload]
  · rename_i fault hother hload
    refine .fails fault fun h => ?_
    obtain ⟨detail, rfl⟩ := h.1 fault hload
    exact hother detail rfl
  · rename_i m hload
    rw [hload]
    exact .congr (puts_children w p.path _) (and_iff_right (isWritten_of_ok hload)).symm
      fun _ _ => Iff.rfl

theorem puts_methods (w : World) (p : PageItem) : Listed.Puts
    (if (p.children?.getD []).isEmpty then listMethods w p.path
      else modify fun l =>
        (p.children?.getD []).foldl (fun l c => l.addMethod (p.path ++ "." ++ c)) l)
    (p.children?.getD [] = [] → IsWritten w (parentPath p.path)) fun _ _ => False := by
  split
  · rename_i hempty
    exact (puts_listMethods w p.path).congr (by simp [List.isEmpty_iff.mp hempty])
      fun _ _ => Iff.rfl
  · rename_i hfull
    refine .congr (.changed fun l s q => ?_)
      (iff_of_true trivial fun hempty => absurd (List.isEmpty_iff.mpr hempty) hfull)
      fun _ _ => Iff.rfl
    rw [on_foldl_addChild, or_false]

theorem puts_members (w : World) (p : PageItem) : Listed.Puts
    (if (p.children?.getD []).isEmpty then listModule w p.path
      else (p.children?.getD []).forM fun c => listChild w (p.path ++ "." ++ c))
    ((p.children?.getD [] = [] → IsWritten w p.path) ∧
      ∀ c ∈ childNames w p, CanTell w (p.path ++ "." ++ c))
    fun s q => ∃ c ∈ childNames w p, q = p.path ++ "." ++ c ∧ Goes w (p.path ++ "." ++ c) s := by
  split
  · rename_i hempty
    have hnil := List.isEmpty_iff.mp hempty
    exact (puts_listModule hnil).congr (by simp [hnil]) fun _ _ => Iff.rfl
  · rename_i hfull
    have hnames : childNames w p = p.children?.getD [] := if_neg hfull
    rw [hnames]
    exact (puts_children w p.path _).congr
      (and_iff_right fun hempty => absurd (List.isEmpty_iff.mpr hempty) hfull).symm
      fun _ _ => Iff.rfl

theorem puts_listPage (w : World) (p : PageItem) :
    (listPage w p).Puts (CanList w p) (Shows w p) := by
  unfold listPage
  simp only
  split
  · rename_i hkind
    exact (puts_addFunction p.path).congr (by simp [CanList, hkind]) (by simp [shows_iff, hkind])
  · rename_i hkind
    exact (puts_addType p.path).congr (by simp [CanList, hkind]) (by simp [shows_iff, hkind])
  · rename_i hkind
    exact ((puts_addClass p.path).bind (puts_methods w p)).congr (by simp [CanList, hkind])
      (by simp [shows_iff, hkind])
  · rename_i hkind
    exact (puts_members w p).congr (by simp [CanList, hkind]) (by simp [shows_iff, hkind])
  · rename_i hkind
    refine .congr (.changed (R := fun _ _ => False) fun l s q => ?_) (by simp [CanList, hkind])
      (by simp [shows_iff, hkind])
    cases s <;> simp [Listing.on, Listing.addMethod]
  · rename_i hfunc htype hclass hmodule _
    refine .congr .pure (iff_of_true trivial ⟨fun h => (hclass h).elim, fun h => (hmodule h).elim⟩)
      fun s q => iff_of_false not_false ?_
    rintro (h | h | h | ⟨h, -, -⟩) <;> contradiction

theorem puts_listPages (w : World) (pages : List PageItem) :
    (listPages w pages).Puts (∀ p ∈ pages, CanList w p)
      fun s path => ∃ p ∈ pages, Shows w p s path :=
  .forM (puts_listPage w) pages

end Run

section Paths

variable {path name : String}

theorem splitChar_child (h : '.' ∉ name.toList) : Text.splitChar '.' (path ++ "." ++ name).toList =
    Text.splitChar '.' path.toList ++ [name.toList] := by
  have hchars : (path ++ "." ++ name).toList = path.toList ++ '.' :: name.toList := by simp
  rw [hchars, Text.splitChar_append, Text.splitChar_of_not_mem h]

theorem parentPath_child (h : '.' ∉ name.toList) : parentPath (path ++ "." ++ name) = path := by
  rw [parentPath, splitChar_child h, List.dropLast_concat]
  exact Text.intercalate_ofList_splitChar rfl path

theorem lastPart_child (h : '.' ∉ name.toList) : lastPart (path ++ "." ++ name) = name := by
  rw [lastPart, Text.afterLast, splitChar_child h, List.getLast?_concat]
  exact String.ofList_toList

end Paths

section Children

variable {w : World} {pages : List PageItem} {p : PageItem} {c : String} {m : Module} {e : Entity}

theorem shelfOf?_isSome (e : Entity) :
    (∃ s, shelfOf? e = some s) ↔ e.isClass = true ∨ e.isFunction = true := by
  cases e with
  | cls info layers =>
    refine iff_of_true ?_ (.inl rfl)
    simp only [shelfOf?]
    split <;> exact ⟨_, rfl⟩
  | _ => simp [shelfOf?, Entity.isClass, Entity.isFunction]

/-- A page that lists a name of a module puts it where the object of that name goes. -/
theorem shows_child (hkind : p.kind = "module") (hc : c ∈ p.children?.getD [])
    (hdot : '.' ∉ c.toList) (hload : w.load p.path = .ok m) (hget : m.get? c = some e) (s : Shelf)
    (hs : shelfOf? e = some s) : Shows w p s (p.path ++ "." ++ c) := by
  have hnames : c ∈ childNames w p := by
    rwa [childNames, if_neg (by simpa using List.ne_nil_of_mem hc)]
  refine .child hkind hnames ((goes_iff (m := m) (e := e) ?_ ?_ s).mpr hs)
  · rwa [parentPath_child hdot]
  · rwa [lastPart_child hdot]

end Children

/-- The pages of an outline can be listed exactly if each can, and then the lists have what the
pages put there. An object that the page of its module names is on exactly one list if it is a class
or a plain function, and on none if it is anything else, unless another page says otherwise. -/
theorem child_listed_iff {w : World} {pages : List PageItem} {p : PageItem} {c : String}
    {m : Module} {e : Entity} (hp : p ∈ pages) (hkind : p.kind = "module")
    (hc : c ∈ p.children?.getD [])
    (hdot : '.' ∉ c.toList) (hload : w.load p.path = .ok m) (hget : m.get? c = some e) :
    ((∃ l, (listPages w pages).result = (.ok (), l)) ↔ ∀ q ∈ pages, CanList w q) ∧
      ∀ l, (listPages w pages).result = (.ok (), l) →
        (∀ s path, path ∈ l.on s ↔ ∃ q ∈ pages, Shows w q s path) ∧
        ((∀ q ∈ pages, ∀ s, Shows w q s (p.path ++ "." ++ c) → shelfOf? e = some s) →
          ((∃ s, p.path ++ "." ++ c ∈ l.on s ∧ ∀ t, p.path ++ "." ++ c ∈ l.on t → t = s) ↔
            e.isClass = true ∨ e.isFunction = true)) := by
  have hputs := puts_listPages w pages
  refine ⟨hputs.ends .empty, fun l hl => ?_⟩
  have hlists (s : Shelf) (path : String) : path ∈ l.on s ↔ ∃ q ∈ pages, Shows w q s path := by
    rw [hputs.puts .empty l hl]
    cases s <;> simp [Listing.on, Listing.empty]
  refine ⟨hlists, fun hothers => ?_⟩
  rw [← shelfOf?_isSome]
  simp only [hlists]
  constructor
  · rintro ⟨s, ⟨q, hq, hshows⟩, -⟩
    exact ⟨s, hothers q hq s hshows⟩
  · rintro ⟨s, hs⟩
    refine ⟨s, ⟨p, hp, shows_child hkind hc hdot hload hget s hs⟩, ?_⟩
    rintro t ⟨q, hq, hshows⟩
    exact Option.some.inj ((hothers q hq t hshows).symm.trans hs)

/-- A module with one object. -/
def imageModule (e : Entity) : Module :=
  ⟨"pixeltable.functions.image", none, [("blend", e)], .unknown, some ["blend"], none, []⟩

def imageWorld (e : Entity) : World :=
  [⟨"pixeltable", none, [], .unknown, some [], none, []⟩,
    ⟨"pixeltable.functions", none, [], .unknown, some [], none, []⟩, imageModule e]

def imagePage : PageItem :=
  ⟨"pixeltable.functions.image", [], "module", some ["blend"], none⟩

theorem child_listed_function :
    let blend : Entity := .func ⟨"blend", none, ⟨[], none⟩, none, .plain, false, .absent⟩
    ∃ l, (listPages (imageWorld blend) [imagePage]).result = (.ok (), l) ∧
      ∃ s, "pixeltable.functions.image.blend" ∈ l.on s ∧
        ∀ t, "pixeltable.functions.image.blend" ∈ l.on t → t = s := by
  intro blend
  have hrun : (listPages (imageWorld blend) [imagePage]).result =
      (.ok (), ⟨["pixeltable.functions.image.blend"], [], [], []⟩) := rfl
  refine ⟨_, hrun, (((child_listed_iff (c := "blend") (e := blend) List.mem_cons_self rfl
    List.mem_cons_self (by decide) rfl rfl).2 _ hrun).2 ?_).mpr (.inr rfl)⟩
  intro q hq s hshows
  cases List.mem_singleton.mp hq
  obtain ⟨h, -⟩ | ⟨h, -⟩ | ⟨h, -⟩ | ⟨-, _, -, hpath, hgoes⟩ := shows_iff.mp hshows
  · exact absurd h (by decide)
  · exact absurd h (by decide)
  · exact absurd h (by decide)
  · rw [← hpath] at hgoes
    exact (goes_iff rfl rfl s).mp hgoes

/-- A function over columns that the outline names is on no list. -/
theorem child_missing_udf :
    let blend : Entity :=
      .udf ⟨"CallableFunction", none, none, none, none, none, none, none, none, none, false⟩
    (imageWorld blend).load imagePage.path = .ok (imageModule blend) ∧
      (imageModule blend).get? "blend" = some blend ∧
      (listPages (imageWorld blend) [imagePage]).result = (.ok (), .empty) := by
  intro blend
  exact ⟨rfl, rfl, rfl⟩

end DocSite.Llm
