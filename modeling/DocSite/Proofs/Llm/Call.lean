import DocSite.Json.View
import DocSite.Llm.Call
import Mathlib.Data.List.Nodup
import Mathlib.Data.List.TakeWhile

/-!
Which calls a parameter list takes, and what a map tells about its parameters.
-/

namespace DocSite.Api

/-- What a call gives: a number of values by place, and values by name. -/
structure Arguments where
  places : Nat
  names : List String

namespace Parameter

def isPlaced (p : Parameter) : Bool := p.kind = .positional || p.kind = .standard

def isNamed (p : Parameter) : Bool := p.kind = .standard || p.kind = .keyword

/-- It takes what no other parameter does, be it nothing. -/
def isVariadic (p : Parameter) : Bool := p.kind = .rest || p.kind = .restKeyword

end Parameter

def placedNames (ps : List Parameter) : List String := (ps.filter Parameter.isPlaced).map (·.name)

def namedNames (ps : List Parameter) : List String := (ps.filter Parameter.isNamed).map (·.name)

namespace Arguments

/-- The parameters that the values by place go to. -/
def filled (a : Arguments) (ps : List Parameter) : List String := (placedNames ps).take a.places

/-- A parameter has a value from the call. -/
def Gives (a : Arguments) (ps : List Parameter) (p : Parameter) : Prop :=
  match p.kind with
  | .positional => p.name ∈ a.filled ps
  | .standard => p.name ∈ a.filled ps ∨ p.name ∈ a.names
  | .keyword => p.name ∈ a.names
  | .rest => (placedNames ps).length < a.places
  | .restKeyword => ∃ n ∈ a.names, n ∉ namedNames ps

/-- The rules by which a call is taken. -/
structure Binds (a : Arguments) (ps : List Parameter) : Prop where
  room : (placedNames ps).length < a.places → ∃ p ∈ ps, p.kind = .rest
  known : ∀ n ∈ a.names, n ∉ namedNames ps → ∃ p ∈ ps, p.kind = .restKeyword
  once : a.names.Nodup
  apart : ∀ n ∈ a.names, n ∈ namedNames ps → n ∉ a.filled ps
  complete : ∀ p ∈ ps, p.isVariadic = false → p.default? = none → a.Gives ps p

/-- A call without one parameter. All others that can be given without it are given, save those
that take what is left over, for which there need be nothing. -/
structure OmitsOnly (a : Arguments) (ps : List Parameter) (p : Parameter) : Prop where
  omitted : ¬a.Gives ps p
  others : ∀ q ∈ ps, q.name ≠ p.name → q.isVariadic = false →
    (∃ b : Arguments, ¬b.Gives ps p ∧ b.Gives ps q) → a.Gives ps q

/-- The call that gives all places before a parameter, and by name what it can of the others. -/
def without (ps : List Parameter) (p : Parameter) : Arguments :=
  let before := (placedNames ps).takeWhile (· ≠ p.name)
  ⟨before.length, (namedNames ps).filter fun n => n ≠ p.name ∧ n ∉ before⟩

end Arguments

/-- What every parameter list keeps to. After a place that may stay empty all others may. -/
structure IsSignature (ps : List Parameter) : Prop where
  names : (ps.map (·.name)).Nodup
  defaults : (ps.filter Parameter.isPlaced).Pairwise
    fun p q => p.default?.isSome → q.default?.isSome
  variadics : ∀ p ∈ ps, p.isVariadic = true → p.default? = none

/-- No call without the parameter is taken. -/
def IsNeeded (ps : List Parameter) (p : Parameter) : Prop :=
  ∀ a : Arguments, a.OmitsOnly ps p → ¬a.Binds ps

section Calls

variable {ps : List Parameter} {p q : Parameter} {a : Arguments} {name : String}

open Arguments

theorem mem_namedNames (hq : q ∈ ps) (hnamed : q.isNamed = true) : q.name ∈ namedNames ps :=
  List.mem_map_of_mem (List.mem_filter.mpr ⟨hq, hnamed⟩)

theorem IsSignature.eq_of_name (h : IsSignature ps) (hp : p ∈ ps) (hq : q ∈ ps)
    (heq : p.name = q.name) : p = q :=
  List.inj_on_of_nodup_map h.names hp hq heq

/-- The kind of a parameter can be told from where its name stands. -/
theorem IsSignature.isPlaced_of_mem (h : IsSignature ps) (hp : p ∈ ps)
    (hmem : p.name ∈ placedNames ps) : p.isPlaced = true := by
  obtain ⟨q, hq, hname⟩ := List.mem_map.mp hmem
  obtain ⟨hqs, hplaced⟩ := List.mem_filter.mp hq
  rwa [← h.eq_of_name hqs hp hname]

@[simp]
theorem filled_without :
    (without ps p).filled ps = (placedNames ps).takeWhile (· ≠ p.name) :=
  (List.prefix_iff_eq_take.mp (List.takeWhile_prefix _)).symm

theorem mem_names_without :
    name ∈ (without ps p).names ↔
      name ∈ namedNames ps ∧ name ≠ p.name ∧ name ∉ (without ps p).filled ps := by
  rw [filled_without]
  simp [without]

theorem ne_of_mem_filled_without (h : name ∈ (without ps p).filled ps) : name ≠ p.name := by
  rw [filled_without] at h
  simpa using List.mem_takeWhile_imp h

theorem not_gives_without : ¬(without ps p).Gives ps p := by
  have hfilled : p.name ∉ (without ps p).filled ps := fun h => ne_of_mem_filled_without h rfl
  have hnames : p.name ∉ (without ps p).names := fun h => (mem_names_without.mp h).2.1 rfl
  have hroom : ¬(placedNames ps).length < (without ps p).places :=
    Nat.not_lt.mpr (List.takeWhile_prefix _).length_le
  rw [Gives]
  cases p.kind with
  | positional => exact hfilled
  | standard => exact not_or.mpr ⟨hfilled, hnames⟩
  | keyword => exact hnames
  | rest => exact hroom
  | restKeyword => exact fun ⟨n, hn, hnamed⟩ => hnamed (mem_names_without.mp hn).1

/-- Nothing but the place of another parameter keeps a parameter from being given. -/
theorem gives_without (h : IsSignature ps) (hq : q ∈ ps) (hne : q.name ≠ p.name)
    (hvar : q.isVariadic = false)
    (hplace : q.kind = .positional → q.name ∈ (without ps p).filled ps) :
    (without ps p).Gives ps q := by
  have hnamed (hn : q.isNamed = true) (hmem : q.name ∉ (without ps p).filled ps) :
      q.name ∈ (without ps p).names :=
    mem_names_without.mpr ⟨mem_namedNames hq hn, hne, hmem⟩
  rw [Gives]
  cases hkind : q.kind with
  | positional => exact hplace hkind
  | standard =>
    exact Classical.or_iff_not_imp_left.mpr (hnamed (by simp [Parameter.isNamed, hkind]))
  | keyword =>
    refine hnamed (by simp [Parameter.isNamed, hkind]) fun hmem => ?_
    have hplaced := h.isPlaced_of_mem hq (List.mem_of_mem_take hmem)
    simp [Parameter.isPlaced, hkind] at hplaced
  | rest | restKeyword => simp [Parameter.isVariadic, hkind] at hvar

theorem not_mem_filled (h : IsSignature ps) (hp : p ∈ ps) (homit : ¬a.Gives ps p) :
    p.name ∉ a.filled ps := by
  intro hmem
  have hplaced := h.isPlaced_of_mem hp (List.mem_of_mem_take hmem)
  apply homit
  rw [Gives]
  cases hkind : p.kind with
  | positional => exact hmem
  | standard => exact .inl hmem
  | rest | keyword | restKeyword => simp [Parameter.isPlaced, hkind] at hplaced

/-- The places that a call without a parameter fills are all before it. -/
theorem mem_filled_without (hp : p.name ∉ a.filled ps) (hmem : name ∈ a.filled ps) :
    name ∈ (without ps p).filled ps := by
  have hall : ∀ n ∈ a.filled ps, decide (n ≠ p.name) = true := fun n hn =>
    decide_eq_true fun heq => hp (heq ▸ hn)
  have hsplit : placedNames ps = a.filled ps ++ (placedNames ps).drop a.places :=
    (List.take_append_drop ..).symm
  rw [filled_without, hsplit, List.takeWhile_append_of_pos hall]
  exact List.mem_append_left _ hmem

theorem omitsOnly_without (h : IsSignature ps) (hp : p ∈ ps) : (without ps p).OmitsOnly ps p := by
  refine ⟨not_gives_without, fun q hq hne hvar ⟨b, homit, hgives⟩ => ?_⟩
  refine gives_without h hq hne hvar fun hkind => ?_
  have hfilled : q.name ∈ b.filled ps := by simpa only [Gives, hkind] using hgives
  exact mem_filled_without (not_mem_filled h hp homit) hfilled

/-- A place that needs a value is before all those that do not. -/
theorem mem_takeWhile_name (h : ps.Pairwise fun p q => p.default?.isSome → q.default?.isSome)
    (hname : ∀ r ∈ ps, r.name = name → r.default?.isSome) (hq : q ∈ ps)
    (hnone : q.default? = none) :
    q.name ∈ (ps.map (·.name)).takeWhile (· ≠ name) := by
  induction ps with
  | nil => cases hq
  | cons r rs ih =>
    obtain ⟨hr, hrs⟩ := List.pairwise_cons.mp h
    by_cases heq : r.name = name
    · have hsome := hname r List.mem_cons_self heq
      rcases List.mem_cons.mp hq with rfl | hq
      · simp [hnone] at hsome
      · simpa [hnone] using hr q hq hsome
    · rw [List.map_cons, List.takeWhile_cons_of_pos (by simpa using heq)]
      rcases List.mem_cons.mp hq with rfl | hq
      · exact List.mem_cons_self
      · exact List.mem_cons_of_mem _ (ih hrs (fun r hr => hname r (List.mem_cons_of_mem _ hr)) hq)

theorem binds_without (h : IsSignature ps) (hp : p ∈ ps)
    (hfree : p.isVariadic = true ∨ p.default?.isSome = true) : (without ps p).Binds ps where
  room hplaces := absurd (List.takeWhile_prefix _).length_le (Nat.not_le.mpr hplaces)
  known n hn hnot := absurd (mem_names_without.mp hn).1 hnot
  once := (h.names.sublist (List.filter_sublist.map _)).filter _
  apart n hn _ := (mem_names_without.mp hn).2.2
  complete q hq hvar hnone := by
    have hne : q.name ≠ p.name := by
      rintro heq
      obtain rfl := h.eq_of_name hq hp heq
      simp [hvar, hnone] at hfree
    refine gives_without h hq hne hvar fun hkind => ?_
    rw [filled_without]
    refine mem_takeWhile_name h.defaults (fun r hr heq => ?_) ?_ hnone
    · obtain ⟨hrs, hplaced⟩ := List.mem_filter.mp hr
      obtain rfl := h.eq_of_name hrs hp heq
      refine hfree.resolve_left fun hvariadic => ?_
      revert hplaced hvariadic
      cases hkind : r.kind <;> simp [Parameter.isPlaced, Parameter.isVariadic, hkind]
    · exact List.mem_filter.mpr ⟨hq, by simp [Parameter.isPlaced, hkind]⟩

theorem isNeeded_iff (h : IsSignature ps) (hp : p ∈ ps) :
    IsNeeded ps p ↔ p.isVariadic = false ∧ p.default? = none := by
  constructor
  · intro hneeded
    have hfree := fun hfree => hneeded _ (omitsOnly_without h hp) (binds_without h hp hfree)
    obtain ⟨hvar, hdefault⟩ := not_or.mp hfree
    exact ⟨by simpa using hvar, by simpa using hdefault⟩
  · rintro ⟨hvar, hnone⟩ a homits hbinds
    exact homits.omitted (hbinds.complete p hp hvar hnone)

end Calls

end DocSite.Api

namespace DocSite.Llm

open Api

/-- The names that the text of a call tells, and whether it says that they are needed. -/
def toldFlags (call : Json) : List (String × Bool) :=
  (call.field "parameters").items.map fun p => (p.textAt "name", (p.field "required").isTrue)

theorem toldFlags_json (c : CallInfo) :
    toldFlags c.json = c.params.map fun p => (p.name, p.required) := by
  have hparams : c.json.field "parameters" = .arr (c.params.map ParamInfo.json) := rfl
  rw [toldFlags, hparams, Json.items, List.map_map]
  rfl

/-- All parameters but the one that a method is called on are told in order. The flag of each is
right unless it takes what is left over. -/
theorem required_flags_iff (proto : Prototype) (h : IsSignature proto.params) :
    ∃ flag : Parameter → Bool,
      toldFlags (CallInfo.of proto).json =
        (proto.params.filter (·.name ≠ "self")).map (fun p => (p.name, flag p)) ∧
      ∀ p ∈ proto.params, (∃ a : Arguments, a.OmitsOnly proto.params p) ∧
        ((flag p = true ↔ IsNeeded proto.params p) ↔ p.isVariadic = false) := by
  refine ⟨fun p => p.default?.isNone, ?_, fun p hp => ?_⟩
  · rw [toldFlags_json, CallInfo.of, List.map_map]
    rfl
  · refine ⟨⟨_, omitsOnly_without h hp⟩, ?_⟩
    rw [isNeeded_iff h hp, Option.isNone_iff_eq_none]
    refine ⟨fun hflag => ?_, fun hvar => by simp [hvar]⟩
    by_contra hvar
    have hvariadic : p.isVariadic = true := by simpa using hvar
    exact hvar (hflag.mp (h.variadics p hp hvariadic)).1

def mixedCall : Prototype where
  params := [⟨"self", .positional, none, none⟩, ⟨"a", .positional, none, none⟩,
    ⟨"b", .standard, none, none⟩, ⟨"c", .standard, none, some (.int 1)⟩, ⟨"d", .rest, none, none⟩,
    ⟨"e", .keyword, none, none⟩, ⟨"f", .keyword, none, some .none⟩,
    ⟨"g", .restKeyword, none, none⟩]
  returns? := none

theorem required_flags_mixed :
    IsSignature mixedCall.params ∧
      toldFlags (CallInfo.of mixedCall).json =
        [("a", true), ("b", true), ("c", false), ("d", true), ("e", true), ("f", false),
          ("g", true)] ∧
      ∃ flag : Parameter → Bool,
        toldFlags (CallInfo.of mixedCall).json =
          (mixedCall.params.filter (·.name ≠ "self")).map (fun p => (p.name, flag p)) ∧
        ∀ p ∈ mixedCall.params, (∃ a : Arguments, a.OmitsOnly mixedCall.params p) ∧
          ((flag p = true ↔ IsNeeded mixedCall.params p) ↔ p.isVariadic = false) := by
  have h : IsSignature mixedCall.params := ⟨by decide, by decide, by decide⟩
  exact ⟨h, by rfl, required_flags_iff mixedCall h⟩

/-- What can be called in any way can be called with nothing, and is told to need two values. -/
theorem required_flags_anything :
    toldFlags (CallInfo.of .anything).json = [("args", true), ("kwargs", true)] ∧
      Arguments.Binds ⟨0, []⟩ Prototype.anything.params ∧
        ∀ p ∈ Prototype.anything.params,
          Arguments.OmitsOnly ⟨0, []⟩ Prototype.anything.params p := by
  have hall : ∀ p ∈ Prototype.anything.params, p.isVariadic ≠ false := by decide
  refine ⟨by rfl, ?_, fun p hp => ⟨?_, fun q hq _ hvar => absurd hvar (hall q hq)⟩⟩
  · exact ⟨by decide, by decide, by decide, by decide, fun p hp hvar => absurd hvar (hall p hp)⟩
  · rcases List.mem_pair.mp hp with rfl | rfl <;> simp [Arguments.Gives]

end DocSite.Llm
