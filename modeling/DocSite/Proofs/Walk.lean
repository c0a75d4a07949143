import DocSite.Proofs.Disk
import DocSite.Proofs.StableSort

/-!
The order in which a search comes to what lies below a directory. It is told by the order in which
the names in each directory are listed, whatever that is.
-/

namespace DocSite.Listing

variable {l : Listing} {place : List String} {entries : List (List String × Node)}
  {entry : List String × Node} {a b name : String} {p q : List String} {depth : Nat}

/-- Whether a walk below a place comes to one path no later than to another. Where the paths part,
one that ends there goes first if a directory is listed before it is gone down into; else the names
tell. -/
def precedes (l : Listing) : List String → List String → List String → Bool
  | _, [], _ => true
  | _, _ :: _, [] => false
  | place, a :: as, b :: bs =>
    if a = b then l.precedes (place ++ [a]) as bs
    else if l.levelFirst && as.isEmpty != bs.isEmpty then as.isEmpty
    else l.before place a b

theorem precedes_same (l : Listing) (place : List String) (a : String) (p q : List String) :
    l.precedes place (a :: p) (a :: q) = l.precedes (place ++ [a]) p q := by
  rw [precedes, if_pos rfl]

theorem precedes_of_ne (h : a ≠ b) (p q : List String) :
    l.precedes place (a :: p) (b :: q) =
      if l.levelFirst && p.isEmpty != q.isEmpty then p.isEmpty else l.before place a b := by
  rw [precedes, if_neg h]

theorem precedes_self (l : Listing) (place p : List String) : l.precedes place p p = true := by
  induction p generalizing place with
  | nil => rfl
  | cons a p ih => rw [precedes_same, ih]

theorem precedes_antisymm (hpq : l.precedes place p q = true) (hqp : l.precedes place q p = true) :
    p = q := by
  induction p generalizing place q with
  | nil =>
    cases q with
    | nil => rfl
    | cons b q => cases hqp
  | cons a p ih =>
    cases q with
    | nil => cases hpq
    | cons b q =>
      by_cases hab : a = b
      · subst hab
        rw [precedes_same] at hpq hqp
        rw [ih hpq hqp]
      · rw [precedes_of_ne hab] at hpq
        rw [precedes_of_ne (Ne.symm hab), bne_comm] at hqp
        by_cases hlevel : (l.levelFirst && p.isEmpty != q.isEmpty) = true
        · rw [if_pos hlevel] at hpq hqp
          simp [hpq, hqp] at hlevel
        · rw [if_neg hlevel] at hpq hqp
          exact absurd (l.before_antisymm hpq hqp) hab

theorem precedes_of_before (hne : a ≠ b) (hbefore : l.before place a b = true)
    (h : l.levelFirst = false ∨ p.isEmpty = q.isEmpty) :
    l.precedes place (a :: p) (b :: q) = true := by
  rw [precedes_of_ne hne, if_neg]
  · exact hbefore
  · rcases h with h | h <;> simp [h]

theorem precedes_of_level (hlevel : l.levelFirst = true) (hq : q ≠ []) (a b : String) :
    l.precedes place [a] (b :: q) = true := by
  by_cases hab : a = b
  · rw [hab, precedes_same, precedes]
  · rw [precedes_of_ne hab, if_pos]
    · rfl
    · simp [hlevel, hq]

section Names

theorem nodup_eraseDups (names : List String) : names.eraseDups.Nodup := by
  induction hlength : names.length using Nat.strongRecOn generalizing names with
  | ind n ih =>
    cases names with
    | nil => exact List.nodup_nil
    | cons name names =>
      rw [List.eraseDups_cons, List.nodup_cons, List.mem_eraseDups, List.mem_filter]
      refine ⟨by simp, ih _ ?_ _ rfl⟩
      rw [← hlength]
      exact Nat.lt_succ_of_le (List.length_filter_le _ _)

theorem arrange_perm (l : Listing) (place names : List String) :
    (l.arrange place names).Perm names := by
  rw [arrange, StableSort.sort_eq_mergeSort (l.before_trans place) (l.before_total place)]
  exact List.mergeSort_perm _ _

theorem mem_heads : name ∈ heads entries ↔ ∃ entry ∈ entries, entry.1.head? = some name := by
  rw [heads, List.mem_eraseDups, List.mem_filterMap]

theorem pairwise_names (l : Listing) (place : List String) (entries : List (List String × Node)) :
    (l.arrange place (heads entries)).Pairwise fun a b => a ≠ b ∧ l.before place a b = true :=
  List.Pairwise.and ((l.arrange_perm place _).nodup_iff.mpr (nodup_eraseDups _))
    (StableSort.pairwise_sort (l.before_trans place) (l.before_total place) _)

theorem mem_under {node : Node} :
    (p, node) ∈ under name entries ↔ p ≠ [] ∧ (name :: p, node) ∈ entries := by
  unfold under
  rw [List.mem_filterMap]
  constructor
  · rintro ⟨⟨q, n⟩, hmem, hq⟩
    match q with
    | [] => cases hq
    | [_] => cases hq
    | a :: b :: rest =>
      simp only [Option.ite_none_right_eq_some, Option.some.injEq, Prod.mk.injEq] at hq
      obtain ⟨rfl, rfl, rfl⟩ := hq
      exact ⟨by simp, hmem⟩
  · rintro ⟨hp, hmem⟩
    obtain ⟨b, rest, rfl⟩ := List.exists_cons_of_ne_nil hp
    exact ⟨_, hmem, by simp⟩

end Names

/-- What lies at a name and what lies further down under it, as one step of a walk finds it. -/
theorem mem_walkTo_succ : entry ∈ l.walkTo (depth + 1) place entries ↔
    ∃ name ∈ heads entries, (entry ∈ entries ∧ entry.1 = [name]) ∨
      ∃ found ∈ l.walkTo depth (place ++ [name]) (under name entries),
        (name :: found.1, found.2) = entry := by
  have hname : ∀ name, name ∈ l.arrange place (heads entries) ↔ name ∈ heads entries :=
    fun _ => (l.arrange_perm place _).mem_iff
  rw [walkTo]
  split
  · simp only [List.mem_append, List.mem_flatMap, hname, List.mem_filter, decide_eq_true_eq,
      List.mem_map, ← exists_or, ← and_or_left]
  · simp only [List.mem_flatMap, hname, List.mem_append, List.mem_filter, decide_eq_true_eq,
      List.mem_map]

/-- A walk finds all that lies no deeper than it goes. -/
theorem mem_walkTo : entry ∈ l.walkTo depth place entries ↔
    entry ∈ entries ∧ entry.1 ≠ [] ∧ entry.1.length ≤ depth := by
  induction depth generalizing place entries entry with
  | zero =>
    refine iff_of_false (List.not_mem_nil) ?_
    rintro ⟨-, hne, hlength⟩
    exact hne (List.eq_nil_of_length_eq_zero (Nat.le_zero.mp hlength))
  | succ depth ih =>
    rw [mem_walkTo_succ]
    constructor
    · rintro ⟨name, -, ⟨hmem, hname⟩ | ⟨⟨p, node⟩, hfound, rfl⟩⟩
      · exact ⟨hmem, by simp [hname], by simp [hname]⟩
      · obtain ⟨hunder, -, hlength⟩ := ih.mp hfound
        exact ⟨(mem_under.mp hunder).2, by simp, Nat.succ_le_succ hlength⟩
    · obtain ⟨parts, node⟩ := entry
      rintro ⟨hmem, hne, hlength⟩
      obtain ⟨name, p, rfl⟩ := List.exists_cons_of_ne_nil hne
      refine ⟨name, mem_heads.mpr ⟨_, hmem, rfl⟩, ?_⟩
      by_cases hp : p = []
      · exact .inl ⟨hmem, by simp [hp]⟩
      · have hunder : (p, node) ∈ under name entries := mem_under.mpr ⟨hp, hmem⟩
        exact .inr ⟨(p, node), ih.mpr ⟨hunder, hp, Nat.le_of_succ_le_succ hlength⟩, rfl⟩

section Order

/-! What is right in a directory, and what is found further down, by the names it is under. -/

variable {names : List String} {own inside : String → List (List String × Node)}
  (hnames : names.Pairwise fun a b => a ≠ b ∧ l.before place a b = true)
  (hown : ∀ name, ∀ x ∈ own name, x.1 = [name])
  (hinside : ∀ name, ∀ x ∈ inside name, ∃ p, p ≠ [] ∧ x.1 = name :: p)
  (hpairs : ∀ name, (inside name).Pairwise fun x y => l.precedes place x.1 y.1 = true)

include hown in
theorem pairwise_own (name : String) :
    (own name).Pairwise fun x y => l.precedes place x.1 y.1 = true :=
  List.pairwise_of_forall_mem_list fun x hx y hy => by
    rw [hown name x hx, hown name y hy, precedes_self]

include hnames hown hinside hpairs

/-- All that is right in the directory comes before all that is further down. -/
theorem pairwise_by_level (hlevel : l.levelFirst = true) :
    (names.flatMap own ++ names.flatMap inside).Pairwise
      fun x y => l.precedes place x.1 y.1 = true := by
  refine List.pairwise_append.mpr
    ⟨List.pairwise_flatMap.mpr ⟨fun name _ => pairwise_own hown name, ?_⟩,
      List.pairwise_flatMap.mpr ⟨fun name _ => hpairs name, ?_⟩, ?_⟩
  · refine hnames.imp fun {a b} ⟨hne, hbefore⟩ x hx y hy => ?_
    rw [hown a x hx, hown b y hy]
    exact precedes_of_before hne hbefore (.inr rfl)
  · refine hnames.imp fun {a b} ⟨hne, hbefore⟩ x hx y hy => ?_
    obtain ⟨p, hp, hxp⟩ := hinside a x hx
    obtain ⟨q, hq, hyq⟩ := hinside b y hy
    rw [hxp, hyq]
    refine precedes_of_before hne hbefore (.inr ?_)
    rw [List.isEmpty_eq_false_iff.mpr hp, List.isEmpty_eq_false_iff.mpr hq]
  · intro x hx y hy
    obtain ⟨a, -, hx⟩ := List.mem_flatMap.mp hx
    obtain ⟨b, -, hy⟩ := List.mem_flatMap.mp hy
    obtain ⟨q, hq, hyq⟩ := hinside b y hy
    rw [hown a x hx, hyq]
    exact precedes_of_level hlevel hq a b

/-- All that is under a name comes before all that is under the next. -/
theorem pairwise_by_name (hlevel : l.levelFirst = false) :
    (names.flatMap fun name => own name ++ inside name).Pairwise
      fun x y => l.precedes place x.1 y.1 = true := by
  have hfirst : ∀ name, ∀ x ∈ own name ++ inside name, ∃ p, x.1 = name :: p := by
    intro name x hx
    rcases List.mem_append.mp hx with hx | hx
    · exact ⟨[], hown name x hx⟩
    · obtain ⟨p, -, hp⟩ := hinside name x hx
      exact ⟨p, hp⟩
  refine List.pairwise_flatMap.mpr ⟨fun name _ => List.pairwise_append.mpr
    ⟨pairwise_own hown name, hpairs name, fun x hx y hy => ?_⟩, ?_⟩
  · obtain ⟨q, -, hyq⟩ := hinside name y hy
    rw [hown name x hx, hyq, precedes_same, precedes]
  · refine hnames.imp fun {a b} ⟨hne, hbefore⟩ x hx y hy => ?_
    obtain ⟨p, hp⟩ := hfirst a x hx
    obtain ⟨q, hq⟩ := hfirst b y hy
    rw [hp, hq]
    exact precedes_of_before hne hbefore (.inl hlevel)

end Order

/-- A walk comes to all paths in their order. -/
theorem pairwise_walkTo (l : Listing) (depth : Nat) (place : List String)
    (entries : List (List String × Node)) :
    (l.walkTo depth place entries).Pairwise fun x y => l.precedes place x.1 y.1 = true := by
  induction depth generalizing place entries with
  | zero => exact List.Pairwise.nil
  | succ depth ih =>
    have hnames := l.pairwise_names place entries
    have hown : ∀ name, ∀ x ∈ entries.filter (fun e => e.1 = [name]), x.1 = [name] :=
      fun name x hx => of_decide_eq_true (List.mem_filter.mp hx).2
    have hinside : ∀ name, ∀ x ∈ (l.walkTo depth (place ++ [name]) (under name entries)).map
        (fun e => (name :: e.1, e.2)), ∃ p, p ≠ [] ∧ x.1 = name :: p := by
      intro name x hx
      obtain ⟨e, he, rfl⟩ := List.mem_map.mp hx
      exact ⟨e.1, (mem_walkTo.mp he).2.1, rfl⟩
    have hpairs : ∀ name, ((l.walkTo depth (place ++ [name]) (under name entries)).map
        fun e => (name :: e.1, e.2)).Pairwise fun x y => l.precedes place x.1 y.1 = true := by
      intro name
      refine List.pairwise_map.mpr ((ih (place ++ [name]) (under name entries)).imp ?_)
      intro x y hxy
      rwa [precedes_same]
    rw [walkTo]
    split
    · rename_i hlevel
      exact pairwise_by_level hnames hown hinside hpairs hlevel
    · rename_i hlevel
      exact pairwise_by_name hnames hown hinside hpairs (by simpa using hlevel)

theorem length_le_depthOf (h : entry ∈ entries) : entry.1.length ≤ depthOf entries := by
  induction entries with
  | nil => cases h
  | cons first entries ih =>
    rw [depthOf, List.foldr_cons]
    rcases List.mem_cons.mp h with rfl | h
    · exact Nat.le_max_left _ _
    · exact Nat.le_trans (ih h) (Nat.le_max_right _ _)

theorem mem_walk : entry ∈ l.walk place entries ↔ entry ∈ entries ∧ entry.1 ≠ [] := by
  rw [walk, mem_walkTo]
  exact ⟨fun h => ⟨h.1, h.2.1⟩, fun h => ⟨h.1, h.2, length_le_depthOf h.1⟩⟩

end DocSite.Listing

namespace DocSite.Disk

variable {d d' : Disk} {place parts : List String} {pattern : String}

theorem mem_matching : parts ∈ d.matching place pattern ↔
    (∃ node, (parts, node) ∈ d.below place) ∧
      Text.fits pattern.toList (parts.getLast?.getD "").toList = true := by
  simp only [matching, List.mem_filter, List.mem_map, Listing.mem_walk]
  refine and_congr_left' ⟨?_, ?_⟩
  · rintro ⟨⟨p, node⟩, ⟨hmem, -⟩, rfl⟩
    exact ⟨node, hmem⟩
  · rintro ⟨node, hmem⟩
    exact ⟨(parts, node), ⟨hmem, ne_nil_of_mem_below hmem⟩, rfl⟩

/-- What fits a pattern comes in the order of a walk. -/
theorem pairwise_matching (d : Disk) (place : List String) (pattern : String) :
    (d.matching place pattern).Pairwise fun a b => d.listing.precedes place a b = true :=
  List.Pairwise.filter _ (List.pairwise_map.mpr (d.listing.pairwise_walkTo _ place _))

/-- The first of what fits a pattern comes before all else that does. -/
theorem head?_matching_eq_some : (d.matching place pattern).head? = some parts ↔
    parts ∈ d.matching place pattern ∧
      ∀ other ∈ d.matching place pattern, d.listing.precedes place parts other = true := by
  have hsorted := pairwise_matching d place pattern
  cases hlist : d.matching place pattern with
  | nil => simp
  | cons first others =>
    rw [hlist] at hsorted
    have hfirst : ∀ other ∈ first :: others, d.listing.precedes place first other = true :=
      List.forall_mem_cons.mpr
        ⟨d.listing.precedes_self place first, (List.pairwise_cons.mp hsorted).1⟩
    simp only [List.head?_cons, Option.some.injEq]
    constructor
    · rintro rfl
      exact ⟨List.mem_cons_self, hfirst⟩
    · rintro ⟨hmem, hall⟩
      exact Listing.precedes_antisymm (hfirst parts hmem) (hall first List.mem_cons_self)

theorem SameApart.matching_eq {q : List String} (h : SameApart place d d') (hq : Apart place q)
    (pattern : String) : d'.matching q pattern = d.matching q pattern := by
  rw [matching, h.listing_eq, h.below_eq q hq]
  rfl

end DocSite.Disk
