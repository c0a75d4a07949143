import DocSite.Contributors.Page
import DocSite.Proofs.Fields
import DocSite.Proofs.Text
import Mathlib.Data.List.Nodup
import Mathlib.Data.List.Perm.Subperm

/-!
Following the pages of contributors from link to link: what is collected, and when it has no end.
-/

namespace DocSite.Contributors

open Text

/-- Characters that an address and a relation may have in a header. -/
def isPlain (c : Char) : Bool := !([',', '<', '>', '\x22'].contains c)

/-- A link of a header: an address, and how what is there stands to the page. -/
structure Link where
  address : List Char
  relation : List Char
  address_ne_nil : address ≠ []
  address_plain : ∀ c ∈ address, isPlain c = true
  relation_plain : ∀ c ∈ relation, isPlain c = true

namespace Link

variable (l : Link)

/-- A link up to its relation. -/
def start : List Char := '<' :: (l.address ++ '>' :: "; rel=".toList)

def text : List Char := l.start ++ '\x22' :: (l.relation ++ ['\x22'])

def isNext : Bool := l.relation = "next".toList

variable {l} {c : Char}

theorem not_mem_address (hc : isPlain c = false) : c ∉ l.address := fun hmem => by
  rw [l.address_plain c hmem] at hc
  cases hc

theorem not_mem_relation (hc : isPlain c = false) : c ∉ l.relation := fun hmem => by
  rw [l.relation_plain c hmem] at hc
  cases hc

theorem comma_not_mem_text (l : Link) : ',' ∉ l.text := by
  simp [text, start, l.not_mem_address (c := ',') rfl, l.not_mem_relation (c := ',') rfl]

/-- A link names a next page only as its relation, which stands between its only quotes. -/
theorem contains_next_iff (gap : List Char) (hgap : '\x22' ∉ gap) (l : Link) :
    contains "rel=\"next\"".toList (gap ++ l.text) = true ↔ l.isNext = true := by
  have hnext : "rel=\"next\"".toList = "rel=".toList ++ '\x22' :: ("next".toList ++ ['\x22']) := rfl
  have hstart : '\x22' ∉ gap ++ l.start := by
    simp [start, hgap, l.not_mem_address (c := '\x22') rfl]
  have hrelation := l.not_mem_relation (c := '\x22') rfl
  have hquoted : '\x22' ∉ "next".toList := by simp
  rw [contains_iff_isInfix, isNext, decide_eq_true_eq, text, ← List.append_assoc, hnext]
  constructor
  · rintro ⟨as, bs, heq⟩
    have hjoin : as ++ ("rel=".toList ++ '\x22' :: ("next".toList ++ ['\x22'])) ++ bs =
        (as ++ "rel=".toList) ++ '\x22' :: ("next".toList ++ '\x22' :: bs) := by simp
    have hsplit := congrArg (splitChar '\x22') (hjoin.symm.trans heq)
    obtain ⟨front, fronts, hfront⟩ :=
      List.exists_cons_of_ne_nil (splitChar_ne_nil '\x22' (as ++ "rel=".toList))
    obtain ⟨back, backs, hback⟩ := List.exists_cons_of_ne_nil (splitChar_ne_nil '\x22' bs)
    rw [splitChar_append, splitChar_append, splitChar_append, splitChar_append, hfront, hback,
      splitChar_of_not_mem hstart, splitChar_of_not_mem hrelation,
      splitChar_of_not_mem hquoted] at hsplit
    -- three pieces on the right leave no room for more quotes on the left
    cases fronts with
    | nil => exact (List.cons.inj (List.cons.inj hsplit).2).1.symm
    | cons piece pieces => cases pieces <;> simp [splitChar] at hsplit
  · intro heq
    refine ⟨gap ++ '<' :: (l.address ++ ">; ".toList), [], ?_⟩
    simp [start, heq]

end Link

def header (links : List Link) : String :=
  String.ofList (", ".toList.intercalate (links.map Link.text))

theorem splitChar_header (l : Link) (links : List Link) :
    splitChar ',' (header (l :: links)).toList = l.text :: links.map (" ".toList ++ Link.text ·) := by
  have hothers : (links.map Link.text).flatMap (fun u => splitChar ',' ([' '] ++ u)) =
      links.map ([' '] ++ Link.text ·) := by
    induction links with
    | nil => rfl
    | cons l links ih =>
      have hl : splitChar ',' ([' '] ++ l.text) = [[' '] ++ l.text] :=
        splitChar_of_not_mem (by simp [l.comma_not_mem_text])
      rw [List.map_cons, List.flatMap_cons, ih, hl]
      rfl
  rw [header, String.toList_ofList, List.map_cons]
  exact (splitChar_intercalate ',' [' '] _ _).trans
    (by rw [splitChar_of_not_mem l.comma_not_mem_text, hothers]; rfl)

/-- The address in a link is what stands between its brackets. -/
theorem cut_link {gap : List Char} (hopen : '<' ∉ gap) (hclose : '>' ∉ gap) (l : Link) :
    (∃ rest, cutAt? ['<'] (gap ++ l.text) = some (gap, rest)) ∧
      ∃ rest, cutAt? ['>'] (gap ++ l.text) = some (gap ++ '<' :: l.address, rest) := by
  have hbefore : '>' ∉ gap ++ '<' :: l.address := by
    simp [hclose, l.not_mem_address (c := '>') rfl]
  have htext : gap ++ l.text = (gap ++ '<' :: l.address) ++
      '>' :: ("; rel=".toList ++ '\x22' :: (l.relation ++ ['\x22'])) := by
    simp [Link.text, Link.start]
  exact ⟨⟨_, cutAt?_append hopen _⟩, _, by rw [htext, cutAt?_append hbefore]⟩

theorem nextAddress?_of_find {links : List Link} (gap : List Char) {l : Link}
    (hopen : '<' ∉ gap) (hclose : '>' ∉ gap)
    (h : (splitChar ',' (header links).toList).find? (contains "rel=\"next\"".toList) =
      some (gap ++ l.text)) :
    nextAddress? (header links) = .ok (some (String.ofList l.address)) := by
  obtain ⟨⟨rest, hcut⟩, rest', hcut'⟩ := cut_link hopen hclose l
  simp only [nextAddress?, h, hcut, hcut']
  simp

/-- The next page of a header is the one of its first link that says so. -/
theorem nextAddress?_header (links : List Link) : nextAddress? (header links) =
    .ok ((links.find? Link.isNext).map fun l => String.ofList l.address) := by
  cases links with
  | nil => rfl
  | cons l links =>
    have hgap : '\x22' ∉ " ".toList := by simp
    have hfirst : contains "rel=\"next\"".toList l.text = l.isNext :=
      Bool.eq_iff_iff.mpr (Link.contains_next_iff [] (by simp) l)
    have hothers : contains "rel=\"next\"".toList ∘ (" ".toList ++ Link.text ·) = Link.isNext :=
      funext fun l => Bool.eq_iff_iff.mpr (Link.contains_next_iff " ".toList hgap l)
    cases hl : l.isNext with
    | true =>
      rw [List.find?_cons_of_pos hl]
      refine nextAddress?_of_find [] (by simp) (by simp) ?_
      rw [splitChar_header, List.find?_cons_of_pos (hfirst.trans hl), List.nil_append]
    | false =>
      have hfind : (splitChar ',' (header (l :: links)).toList).find?
          (contains "rel=\"next\"".toList) =
            (links.find? Link.isNext).map (" ".toList ++ Link.text ·) := by
        rw [splitChar_header, List.find?_cons_of_neg, List.find?_map, hothers]
        rw [hfirst, hl]
        exact Bool.false_ne_true
      rw [List.find?_cons_of_neg (by simp [hl])]
      cases hnext : links.find? Link.isNext with
      | none =>
        rw [hnext] at hfind
        simp only [nextAddress?, hfind, Option.map_none]
      | some m =>
        rw [hnext] at hfind
        exact nextAddress?_of_find " ".toList (by simp) (by simp) hfind

/-- What an address answers, the header of a page given by its links. -/
inductive Reply
  | failing (reason : String)
  | page (text : String) (links : List Link)

def Reply.response : Reply → Response
  | .failing reason => .failing reason
  | .page text links => .page text (header links)

/-- The addresses that can be reached. -/
abbrev Table := OrderedMap Reply

namespace Table

variable {t : Table} {a b : String} {n fuel : Nat} {found : List Json}

def network (t : Table) : Network := OrderedMap.mapValues Reply.response t

/-- The page that comes after one. -/
def next? (t : Table) (address : String) : Option String :=
  match OrderedMap.get? address t with
  | some (.page _ links) => (links.find? Link.isNext).map fun l => String.ofList l.address
  | _ => none

/-- What a page adds, if it opens and its value can be gone through: the items of a list. -/
def items? (t : Table) (address : String) : Option (List Json) :=
  match OrderedMap.get? address t with
  | some (.page text _) => (Json.parse text >>= Json.each).toOption
  | _ => none

/-- The address after so many steps of the chain that begins at an address. -/
def follow (t : Table) : Nat → String → Option String
  | 0, address => some address
  | n + 1, address => (t.next? address).bind (t.follow n)

theorem next?_ne_empty (h : t.next? a = some b) : b ≠ "" := by
  rw [next?] at h
  split at h
  · obtain ⟨l, -, rfl⟩ := Option.map_eq_some_iff.mp h
    simpa using l.address_ne_nil
  · cases h

theorem loadPage_eq_ok_iff {p : List Json × Option String} :
    loadPage t.network a = .ok p ↔ t.items? a = some p.1 ∧ p.2 = t.next? a := by
  have hget : OrderedMap.get? a t.network = (OrderedMap.get? a t).map Reply.response :=
    OrderedMap.get?_mapValues Reply.response a t
  cases hreply : OrderedMap.get? a t with
  | none => simp [loadPage, Network.load, Network.visit, hget, hreply, items?, bind, Except.bind]
  | some reply =>
    cases reply with
    | failing reason =>
      simp [loadPage, Network.load, Network.visit, hget, hreply, Reply.response, items?, bind,
        Except.bind]
    | page text links =>
      have hload : t.network.load a = (Json.parse text).map fun v => (v, header links) := by
        simp only [Network.load, Network.visit, hget, hreply, Option.map_some, Reply.response, bind,
          Except.bind]
        cases Json.parse text <;> rfl
      simp only [loadPage, hload, items?, next?, hreply, bind, Except.bind]
      cases Json.parse text with
      | error fault => simp [Except.map, Except.toOption]
      | ok v =>
        simp only [Except.map, nextAddress?_header]
        cases v.each with
        | error fault => simp [Except.toOption]
        | ok items => simp [Except.toOption, pure, Except.pure, Prod.ext_iff, eq_comm]

/-- A page that cannot be taken in ends the run with a fault. -/
theorem followPages_of_none (ha : a ≠ "") (h : t.items? a = none) (fuel : Nat) :
    ∃ fault, followPages t.network (fuel + 1) a = some (.error fault) := by
  rw [followPages, if_neg (by simpa using ha)]
  cases hload : loadPage t.network a with
  | error fault => exact ⟨fault, rfl⟩
  | ok p => simp [(loadPage_eq_ok_iff.mp hload).1] at h

/-- The run ends with a page that has no next one. -/
theorem followPages_last (ha : a ≠ "") (h : t.items? a = some found) (hnext : t.next? a = none)
    (fuel : Nat) : followPages t.network (fuel + 1) a = some (.ok found) := by
  have hload : loadPage t.network a = .ok (found, none) := loadPage_eq_ok_iff.mpr ⟨h, hnext.symm⟩
  rw [followPages, if_neg (by simpa using ha), hload]

theorem followPages_onward (ha : a ≠ "") (h : t.items? a = some found) (hnext : t.next? a = some b)
    (fuel : Nat) : followPages t.network (fuel + 1) a =
      (followPages t.network fuel b).map fun r => r.map (found ++ ·) := by
  have hload : loadPage t.network a = .ok (found, some b) :=
    loadPage_eq_ok_iff.mpr ⟨h, hnext.symm⟩
  rw [followPages, if_neg (by simpa using ha), hload]

/-- What the page after so many steps of the chain adds. -/
def page? (t : Table) (n : Nat) (address : String) : Option (List Json) :=
  (t.follow n address).bind t.items?

theorem page?_zero : t.page? 0 a = t.items? a := rfl

theorem follow_succ (h : t.next? a = some b) (n : Nat) : t.follow (n + 1) a = t.follow n b := by
  rw [follow, h, Option.bind_some]

theorem page?_succ (h : t.next? a = some b) (n : Nat) : t.page? (n + 1) a = t.page? n b := by
  rw [page?, follow_succ h, page?]

/-- The chain ends after so many steps, and its pages add so much. -/
def Ends (t : Table) (n : Nat) (address : String) (pages : Nat → List Json) : Prop :=
  (∃ last, t.follow n address = some last ∧ t.next? last = none) ∧
    ∀ k ≤ n, t.page? k address = some (pages k)

theorem followPages_of_ends {pages : Nat → List Json} (ha : a ≠ "") (h : t.Ends n a pages) :
    followPages t.network (n + 1) a = some (.ok ((List.range (n + 1)).flatMap pages)) := by
  induction n generalizing a pages with
  | zero =>
    obtain ⟨⟨last, hlast, hnext⟩, hpages⟩ := h
    cases hlast
    rw [followPages_last ha (hpages 0 (Nat.le_refl 0)) hnext]
    simp
  | succ n ih =>
    obtain ⟨⟨last, hlast, hend⟩, hpages⟩ := h
    obtain ⟨b, hb, hfollow⟩ := Option.bind_eq_some_iff.mp hlast
    have hrest : t.Ends n b fun k => pages (k + 1) :=
      ⟨⟨last, hfollow, hend⟩, fun k hk => page?_succ hb k ▸ hpages (k + 1) (by omega)⟩
    rw [followPages_onward ha (hpages 0 (by omega)) hb, ih (next?_ne_empty hb) hrest,
      List.range_succ_eq_map (n := n + 1)]
    simp [Except.map, List.flatMap_map]

theorem exists_ends_of_followPages (ha : a ≠ "")
    (h : followPages t.network fuel a = some (.ok found)) :
    ∃ n pages, t.Ends n a pages ∧ found = (List.range (n + 1)).flatMap pages := by
  induction fuel generalizing a found with
  | zero => cases h
  | succ fuel ih =>
    cases hitems : t.items? a with
    | none =>
      obtain ⟨fault, hfault⟩ := followPages_of_none ha hitems fuel
      cases h.symm.trans hfault
    | some here =>
      cases hnext : t.next? a with
      | none =>
        rw [followPages_last ha hitems hnext] at h
        cases h
        refine ⟨0, fun _ => found, ⟨⟨a, rfl, hnext⟩, fun k hk => ?_⟩, by simp⟩
        rw [Nat.le_zero.mp hk]
        exact hitems
      | some b =>
        rw [followPages_onward ha hitems hnext] at h
        obtain ⟨r, hr, hmap⟩ := Option.map_eq_some_iff.mp h
        obtain ⟨rest, rfl, rfl⟩ := Attempt.map_eq_ok.mp hmap
        obtain ⟨n, pages, ⟨⟨last, hlast, hend⟩, hpages⟩, rfl⟩ := ih (next?_ne_empty hnext) hr
        refine ⟨n + 1, fun k => k.casesOn here pages,
          ⟨⟨last, (follow_succ hnext n).trans hlast, hend⟩, fun k hk => ?_⟩, ?_⟩
        · cases k with
          | zero => exact hitems
          | succ k => exact (page?_succ hnext k).trans (hpages k (by omega))
        · rw [List.range_succ_eq_map (n := n + 1), List.flatMap_cons, List.flatMap_map]
          rfl

/-- A run fails over a page of the chain that cannot be taken in. -/
theorem exists_unread_of_followPages {fault : Fault} (ha : a ≠ "")
    (h : followPages t.network fuel a = some (.error fault)) :
    ∃ n b, t.follow n a = some b ∧ t.items? b = none := by
  induction fuel generalizing a with
  | zero => cases h
  | succ fuel ih =>
    cases hitems : t.items? a with
    | none => exact ⟨0, a, rfl, hitems⟩
    | some here =>
      cases hnext : t.next? a with
      | none => cases h.symm.trans (followPages_last ha hitems hnext fuel)
      | some b =>
        rw [followPages_onward ha hitems hnext] at h
        obtain ⟨r, hr, hmap⟩ := Option.map_eq_some_iff.mp h
        cases r with
        | ok rest => cases hmap
        | error _ =>
          cases hmap
          obtain ⟨n, c, hfollow, hc⟩ := ih (next?_ne_empty hnext) hr
          exact ⟨n + 1, c, (follow_succ hnext n).trans hfollow, hc⟩

theorem followPages_of_unread (ha : a ≠ "") (hfollow : t.follow n a = some b)
    (hb : t.items? b = none) :
    ∃ fault, followPages t.network (n + 1) a = some (.error fault) := by
  induction n generalizing a with
  | zero =>
    cases hfollow
    exact followPages_of_none ha hb 0
  | succ n ih =>
    cases hitems : t.items? a with
    | none => exact followPages_of_none ha hitems _
    | some here =>
      obtain ⟨c, hc, hrest⟩ := Option.bind_eq_some_iff.mp hfollow
      obtain ⟨fault, hfault⟩ := ih (next?_ne_empty hc) hrest
      exact ⟨fault, by rw [followPages_onward ha hitems hc, hfault]; rfl⟩

/-- A run goes on as long as there are pages that can be taken in. -/
theorem followPages_eq_none_iff (ha : a ≠ "") : followPages t.network fuel a = none ↔
    (∀ n < fuel, (t.page? n a).isSome) ∧ (t.follow fuel a).isSome := by
  induction fuel generalizing a with
  | zero => simp [followPages, follow]
  | succ fuel ih =>
    cases hitems : t.items? a with
    | none =>
      obtain ⟨fault, hfault⟩ := followPages_of_none ha hitems fuel
      rw [hfault]
      refine iff_of_false nofun fun h => ?_
      simpa [page?_zero, hitems] using h.1 0 (by omega)
    | some here =>
      cases hnext : t.next? a with
      | none =>
        rw [followPages_last ha hitems hnext]
        refine iff_of_false nofun fun h => ?_
        simpa [follow, hnext] using h.2
      | some b =>
        rw [followPages_onward ha hitems hnext, Option.map_eq_none_iff, ih (next?_ne_empty hnext),
          follow_succ hnext]
        refine and_congr_left fun _ => ⟨fun h n hn => ?_, fun h n hn => ?_⟩
        · cases n with
          | zero => simp [page?_zero, hitems]
          | succ n => exact page?_succ hnext n ▸ h n (by omega)
        · exact page?_succ hnext n ▸ h (n + 1) (by omega)

section Circle

theorem follow_add (n m : Nat) : t.follow (n + m) a = (t.follow n a).bind (t.follow m) := by
  induction n generalizing a with
  | zero => rw [Nat.zero_add, follow, Option.bind_some]
  | succ n ih =>
    rw [Nat.succ_add, follow, follow, Option.bind_assoc]
    exact Option.bind_congr fun b _ => ih

/-- The chain comes back to an address. -/
def Circles (t : Table) (address : String) : Prop :=
  ∃ i j b, i < j ∧ t.follow i address = some b ∧ t.follow j address = some b

/-- A chain that comes back has no addresses but those before it does. -/
theorem exists_follow_eq {i j : Nat} (hij : i < j) (h : t.follow i a = t.follow j a) (n : Nat) :
    ∃ m < j, t.follow n a = t.follow m a := by
  induction n using Nat.strongRecOn with
  | _ n ih =>
    by_cases hn : n < j
    · exact ⟨n, hn, rfl⟩
    · obtain ⟨k, rfl⟩ := Nat.exists_eq_add_of_le (Nat.not_lt.mp hn)
      obtain ⟨m, hm, hfollow⟩ := ih (i + k) (by omega)
      exact ⟨m, hm, by rw [follow_add, ← h, ← follow_add, hfollow]⟩

theorem Circles.follow_isSome (h : t.Circles a) (n : Nat) : (t.follow n a).isSome := by
  obtain ⟨i, j, b, hij, hi, hj⟩ := h
  obtain ⟨m, hm, hfollow⟩ := exists_follow_eq hij (hi.trans hj.symm) n
  obtain ⟨k, rfl⟩ := Nat.exists_eq_add_of_lt hm
  rw [Nat.add_assoc, follow_add] at hj
  obtain ⟨c, hc, -⟩ := Option.bind_eq_some_iff.mp hj
  rw [hfollow, hc]
  rfl

theorem mem_keys_of_items? (h : t.items? a = some found) : a ∈ OrderedMap.keys t := by
  cases hget : OrderedMap.get? a t with
  | none => simp [items?, hget] at h
  | some reply => exact List.mem_map.mpr ⟨_, OrderedMap.mem_of_get? hget, rfl⟩

/-- As many pages as there are addresses, and one more, cannot all be different. -/
theorem exists_repeat (h : ∀ n ≤ t.length, (t.page? n a).isSome) :
    ∃ i j b, i < j ∧ j ≤ t.length ∧ t.follow i a = some b ∧ t.follow j a = some b := by
  have hpage (n : Nat) (hn : n ≤ t.length) : ∃ b ∈ OrderedMap.keys t, t.follow n a = some b := by
    obtain ⟨found, hfound⟩ := Option.isSome_iff_exists.mp (h n hn)
    obtain ⟨b, hb, hitems⟩ := Option.bind_eq_some_iff.mp hfound
    exact ⟨b, mem_keys_of_items? hitems, hb⟩
  by_cases hinj : ∀ i ∈ List.range (t.length + 1), ∀ j ∈ List.range (t.length + 1),
      t.follow i a = t.follow j a → i = j
  · -- then the chain has more addresses without a repetition than the table
    have hsub : (List.range (t.length + 1)).map (t.follow · a) ⊆ (OrderedMap.keys t).map some := by
      intro x hx
      obtain ⟨n, hn, rfl⟩ := List.mem_map.mp hx
      obtain ⟨b, hb, hfollow⟩ := hpage n (Nat.lt_succ_iff.mp (List.mem_range.mp hn))
      exact List.mem_map.mpr ⟨b, hb, hfollow.symm⟩
    have hlength := ((List.nodup_range.map_on hinj).subperm hsub).length_le
    simp only [List.length_map, List.length_range, OrderedMap.keys] at hlength
    omega
  · simp only [List.mem_range, Nat.lt_succ_iff, not_forall] at hinj
    obtain ⟨i, hi, j, hj, hfollow, hne⟩ := hinj
    obtain ⟨b, -, hb⟩ := hpage i hi
    rcases Nat.lt_or_gt_of_ne hne with hij | hji
    · exact ⟨i, j, b, hij, hj, hb, hfollow ▸ hb⟩
    · exact ⟨j, i, b, hji, hi, hfollow ▸ hb, hb⟩

/-- A chain that comes back, with pages that can all be taken in. -/
def Endless (t : Table) (address : String) : Prop :=
  t.Circles address ∧ ∀ n b, t.follow n address = some b → (t.items? b).isSome

theorem Endless.followPages_eq_none (ha : a ≠ "") (h : t.Endless a) (fuel : Nat) :
    followPages t.network fuel a = none := by
  refine (followPages_eq_none_iff ha).mpr ⟨fun n _ => ?_, h.1.follow_isSome fuel⟩
  obtain ⟨b, hb⟩ := Option.isSome_iff_exists.mp (h.1.follow_isSome n)
  rw [page?, hb]
  exact h.2 n b hb

/-- So many pages as there are addresses are enough to tell that a run has no end. -/
theorem endless_of_allPages (ha : a ≠ "") (h : allPages t.network a = none) : t.Endless a := by
  have hlength : t.network.length = t.length := List.length_map _
  rw [allPages, hlength, followPages_eq_none_iff ha] at h
  obtain ⟨i, j, b, hij, hj, hi, hback⟩ :=
    exists_repeat fun n hn => h.1 n (Nat.lt_succ_of_le hn)
  refine ⟨⟨i, j, b, hij, hi, hback⟩, fun n c hc => ?_⟩
  obtain ⟨m, hm, hfollow⟩ := exists_follow_eq hij (hi.trans hback.symm) n
  have hpage := h.1 m (by omega)
  rwa [page?, ← hfollow, hc, Option.bind_some] at hpage

end Circle

end Table

/-- A run that ends does so with as many pages or more. -/
theorem followPages_add {net : Network} {a : String} {fuel : Nat} {r : Except Fault (List Json)}
    (h : followPages net fuel a = some r) (more : Nat) : followPages net (fuel + more) a = some r := by
  induction fuel generalizing a r with
  | zero => cases h
  | succ fuel ih =>
    rw [Nat.succ_add, followPages]
    rw [followPages] at h
    split
    · rwa [if_pos ‹_›] at h
    · rw [if_neg ‹_›] at h
      cases hload : loadPage net a with
      | error fault => rwa [hload] at h
      | ok p =>
        obtain ⟨found, next?⟩ := p
        rw [hload] at h
        cases next? with
        | none => exact h
        | some next =>
          obtain ⟨r', hr', rfl⟩ := Option.map_eq_some_iff.mp h
          exact Option.map_eq_some_iff.mpr ⟨r', ih hr', rfl⟩

namespace Table

/-- Following the pages ends as it does with any number of them that is enough. -/
theorem allPages_eq_some_iff {t : Table} {a : String} {r : Except Fault (List Json)} (ha : a ≠ "") :
    allPages t.network a = some r ↔ ∃ fuel, followPages t.network fuel a = some r := by
  refine ⟨fun h => ⟨_, h⟩, fun ⟨fuel, h⟩ => ?_⟩
  cases hall : allPages t.network a with
  | none => cases ((endless_of_allPages ha hall).followPages_eq_none ha fuel).symm.trans h
  | some r' =>
    have hmore := followPages_add hall fuel
    rw [Nat.add_comm, followPages_add h] at hmore
    exact hmore.symm

end Table

section Fetch

variable {net : Network} {repository : String}

theorem fetch_eq_ok_iff {found : List Json} : fetch net repository = .ok found ↔
    allPages net (firstAddress repository) = some (.ok found) := by
  rw [fetch]
  rcases allPages net (firstAddress repository) with _ | _ | _ <;> simp

theorem fetch_eq_givenUp_iff :
    (∃ reason, fetch net repository = .error (.failed (.givenUp reason))) ↔
      ∃ fault, allPages net (firstAddress repository) = some (.error fault) := by
  rw [fetch]
  rcases allPages net (firstAddress repository) with _ | _ | _ <;> simp

theorem fetch_eq_endless_iff : fetch net repository = .error .endless ↔
    allPages net (firstAddress repository) = none := by
  rw [fetch]
  rcases allPages net (firstAddress repository) with _ | _ | _ <;> simp

theorem firstAddress_ne_empty (repository : String) : firstAddress repository ≠ "" :=
  fun h => absurd (String.append_eq_empty_iff.mp h).2 (by decide)

end Fetch

/-- Fetching follows the chain of pages from the first address on. It gives what all pages add, in
order, exactly if the chain ends and all its pages can be taken in; it is given up exactly if a page
of the chain cannot; and it has no end, however many pages are allowed, exactly if the chain comes
back to an address and all its pages can be taken in. -/
theorem fetch_outcomes (t : Table) (repository : String) :
    (∀ found, fetch t.network repository = .ok found ↔
      ∃ n pages, t.Ends n (firstAddress repository) pages ∧
        found = (List.range (n + 1)).flatMap pages) ∧
    ((∃ reason, fetch t.network repository = .error (.failed (.givenUp reason))) ↔
      ∃ n address, t.follow n (firstAddress repository) = some address ∧
        t.items? address = none) ∧
    (fetch t.network repository = .error .endless ↔ t.Endless (firstAddress repository)) ∧
    ((∀ fuel, followPages t.network fuel (firstAddress repository) = none) ↔
      t.Endless (firstAddress repository)) := by
  have hfirst := firstAddress_ne_empty repository
  refine ⟨fun found => ?_, ?_, ?_, ?_⟩
  · rw [fetch_eq_ok_iff, Table.allPages_eq_some_iff hfirst]
    constructor
    · rintro ⟨fuel, h⟩
      exact Table.exists_ends_of_followPages hfirst h
    · rintro ⟨n, pages, h, rfl⟩
      exact ⟨n + 1, Table.followPages_of_ends hfirst h⟩
  · rw [fetch_eq_givenUp_iff]
    constructor
    · rintro ⟨fault, h⟩
      exact Table.exists_unread_of_followPages hfirst h
    · rintro ⟨n, address, hfollow, hnone⟩
      obtain ⟨fault, h⟩ := Table.followPages_of_unread hfirst hfollow hnone
      exact ⟨fault, (Table.allPages_eq_some_iff hfirst).mpr ⟨_, h⟩⟩
  · rw [fetch_eq_endless_iff]
    exact ⟨Table.endless_of_allPages hfirst, fun h => h.followPages_eq_none hfirst _⟩
  · exact ⟨fun h => Table.endless_of_allPages hfirst (h _), fun h => h.followPages_eq_none hfirst⟩

/-- A link from a page to the first one. -/
def backToFirst : Link where
  address := (firstAddress "o/r").toList
  relation := "next".toList
  address_ne_nil := by simpa using firstAddress_ne_empty "o/r"
  address_plain := List.all_eq_true.mp rfl
  relation_plain := List.all_eq_true.mp rfl

def numberPage : Table := [(firstAddress "o/r", .page "5" [backToFirst])]

/-- A chain comes back to its first page, which opens and is a value, and yet fetching has an end: a
number has no items. -/
theorem fetch_circle_given_up :
    numberPage.Circles (firstAddress "o/r") ∧ Json.parse "5" = .ok (.int 5) ∧
      ∃ reason, fetch numberPage.network "o/r" = .error (.failed (.givenUp reason)) := by
  have hget : OrderedMap.get? (firstAddress "o/r") numberPage = some (.page "5" [backToFirst]) :=
    if_pos rfl
  have hnext : numberPage.next? (firstAddress "o/r") = some (firstAddress "o/r") := by
    rw [Table.next?, hget]
    exact congrArg some String.ofList_toList
  have hfirst := firstAddress_ne_empty "o/r"
  refine ⟨⟨0, 1, _, Nat.zero_lt_one, rfl, Table.follow_succ hnext 0⟩, rfl,
    fetch_eq_givenUp_iff.mpr ?_⟩
  obtain ⟨fault, h⟩ := Table.followPages_of_none hfirst (by rw [Table.items?, hget]; rfl) 0
  exact ⟨fault, (Table.allPages_eq_some_iff hfirst).mpr ⟨_, h⟩⟩

end DocSite.Contributors
