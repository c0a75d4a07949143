import DocSite.Proofs.Json.Numbers
import DocSite.Proofs.Json.Strings
import DocSite.Text.Lines

namespace DocSite.Json

section Readable

variable {n fuel : Nat} {v : Json} {cs rest : List Char}

/-- Values that can be read inside of `n` others: no number is too long, no text has halves that
would be joined, no key stands twice, and nothing lies too deep. -/
inductive Readable : Nat → Json → Prop
  | null {n : Nat} : Readable n .null
  | bool {n : Nat} (b : Bool) : Readable n (.bool b)
  | int {n : Nat} {i : Int} (hi : i.natAbs < 10 ^ digitLimit) : Readable n (.int i)
  | float {n : Nat} (x : Double) : Readable n (.float x)
  | str {n : Nat} {s : String} (hs : Settled s.toList) : Readable n (.str s)
  | arr {n : Nat} {items : List Json} (hn : n < depthLimit)
      (hitems : ∀ x ∈ items, Readable (n + 1) x) : Readable n (.arr items)
  | obj {n : Nat} {fields : List (String × Json)} (hn : n < depthLimit)
      (hkeys : (fields.map Prod.fst).Nodup) (hsettled : ∀ f ∈ fields, Settled f.1.toList)
      (hfields : ∀ f ∈ fields, Readable (n + 1) f.2) : Readable n (.obj fields)


theorem readable_keyword (h : readKeyword cs = .ok (some (v, rest))) : Readable n v := by
  rcases readKeyword_cases h with rfl | ⟨b, rfl⟩ | ⟨i, rfl, hi⟩ | ⟨x, rfl⟩
  · exact .null
  · exact .bool b
  · exact .int hi
  · exact .float x

/-- With some fuel, whatever is read as a value can be read. -/
def ValuesReadable (fuel : Nat) : Prop :=
  ∀ n cs v rest, readValue fuel n cs = .ok (v, rest) → Readable n v

def ItemsReadable (fuel : Nat) : Prop :=
  ∀ n cs xs rest, readItems fuel n cs = .ok (xs, rest) → ∀ x ∈ xs, Readable n x

def FieldsReadable (fuel : Nat) : Prop :=
  ∀ n cs fs rest, readFields fuel n cs = .ok (fs, rest) →
    ∀ f ∈ fs, Settled f.1.toList ∧ Readable n f.2

theorem valuesReadable_succ (hitems : ItemsReadable fuel) (hfields : FieldsReadable fuel) :
    ValuesReadable (fuel + 1) := by
  intro n cs v rest h
  rw [readValue.eq_def] at h
  simp only at h
  split at h
  · obtain ⟨⟨s, r⟩, hs, hmap⟩ := Attempt.map_eq_ok.mp h
    rw [← (Prod.mk.inj hmap).1]
    exact .str (settled_readString hs)
  · split at h
    · cases h
    · rename_i hdepth
      split at h
      · cases h
        exact .arr (Nat.not_le.mp hdepth) (by simp)
      · obtain ⟨⟨xs, r⟩, hxs, hmap⟩ := Attempt.map_eq_ok.mp h
        rw [← (Prod.mk.inj hmap).1]
        exact .arr (Nat.not_le.mp hdepth) (hitems _ _ _ _ hxs)
  · split at h
    · cases h
    · rename_i hdepth
      split at h
      · cases h
        exact .obj (Nat.not_le.mp hdepth) (by simp) (by simp) (by simp)
      · obtain ⟨⟨fs, r⟩, hfs, hmap⟩ := Attempt.map_eq_ok.mp h
        have hall := hfields _ _ _ _ hfs
        rw [← (Prod.mk.inj hmap).1]
        exact .obj (Nat.not_le.mp hdepth) (OrderedMap.nodup_ofEntries fs)
          (fun f hf => (hall f (OrderedMap.mem_ofEntries hf)).1)
          (fun f hf => (hall f (OrderedMap.mem_ofEntries hf)).2)
  · obtain ⟨found, hfound, hmatch⟩ := Attempt.bind_eq_ok.mp h
    cases found with
    | none => cases hmatch
    | some p =>
      cases hmatch
      exact readable_keyword hfound

theorem itemsReadable_succ (hvalues : ValuesReadable fuel) (hitems : ItemsReadable fuel) :
    ItemsReadable (fuel + 1) := by
  intro n cs xs rest h
  rw [readItems] at h
  obtain ⟨⟨x, r⟩, hx, hnext⟩ := Attempt.bind_eq_ok.mp h
  have hfirst := hvalues _ _ _ _ hx
  simp only at hnext
  split at hnext
  · cases hnext
    exact List.forall_mem_singleton.mpr hfirst
  · obtain ⟨⟨ys, r'⟩, hys, hresult⟩ := Attempt.bind_eq_ok.mp hnext
    cases hresult
    exact List.forall_mem_cons.mpr ⟨hfirst, hitems _ _ _ _ hys⟩
  · cases hnext

theorem fieldsReadable_succ (hvalues : ValuesReadable fuel) (hfields : FieldsReadable fuel) :
    FieldsReadable (fuel + 1) := by
  intro n cs fs rest h
  rw [readFields.eq_def] at h
  simp only at h
  split at h
  · obtain ⟨⟨k, r⟩, hk, hcolon⟩ := Attempt.bind_eq_ok.mp h
    simp only at hcolon
    split at hcolon
    · obtain ⟨⟨v, r'⟩, hv, hnext⟩ := Attempt.bind_eq_ok.mp hcolon
      have hfirst : Settled k.toList ∧ Readable n v :=
        ⟨settled_readString hk, hvalues _ _ _ _ hv⟩
      simp only at hnext
      split at hnext
      · cases hnext
        exact List.forall_mem_singleton.mpr hfirst
      · obtain ⟨⟨gs, r''⟩, hgs, hresult⟩ := Attempt.bind_eq_ok.mp hnext
        cases hresult
        exact List.forall_mem_cons.mpr ⟨hfirst, hfields _ _ _ _ hgs⟩
      · cases hnext
    · cases hcolon
  · cases h

theorem readable_of_read (fuel : Nat) :
    ValuesReadable fuel ∧ ItemsReadable fuel ∧ FieldsReadable fuel := by
  induction fuel with
  | zero =>
    refine ⟨fun n cs v rest h => ?_, fun n cs xs rest h => ?_, fun n cs fs rest h => ?_⟩
    · rw [readValue] at h
      cases h
    · rw [readItems] at h
      cases h
    · rw [readFields] at h
      cases h
  | succ fuel ih =>
    obtain ⟨hvalues, hitems, hfields⟩ := ih
    exact ⟨valuesReadable_succ hitems hfields, itemsReadable_succ hvalues hitems,
      fieldsReadable_succ hvalues hfields⟩

theorem readable_of_parse (h : parseChars cs = .ok v) : Readable 0 v := by
  have hbody := Attempt.mapError_eq_ok.mp h
  split at hbody
  · cases hbody
  · obtain ⟨⟨w, rest⟩, hread, hrest⟩ := Attempt.bind_eq_ok.mp hbody
    simp only at hrest
    split at hrest
    · cases hrest
      exact (readable_of_read _).1 _ _ _ _ hread
    · cases hrest

theorem Readable.item {xs : List Json} {x : Json} (h : Readable n (.arr xs)) (hx : x ∈ xs) :
    Readable (n + 1) x := by
  cases h with
  | arr hn hitems => exact hitems x hx

theorem Readable.get? {fs : List (String × Json)} {key : String} (h : Readable n (.obj fs))
    (hv : OrderedMap.get? key fs = some v) : Readable (n + 1) v := by
  cases h with
  | obj hn hkeys hsettled hfields => exact hfields (key, v) (OrderedMap.mem_of_get? hv)

theorem Readable.set {fs : List (String × Json)} {key : String} (h : Readable n (.obj fs))
    (hkey : Settled key.toList) (hv : Readable (n + 1) v) :
    Readable n (.obj (OrderedMap.set key v fs)) := by
  cases h with
  | obj hn hkeys hsettled hfields =>
    refine .obj hn (OrderedMap.nodup_set hkeys key v) (fun f hf => ?_) (fun f hf => ?_)
    · rcases OrderedMap.mem_set hf with hold | rfl
      · exact hsettled f hold
      · exact hkey
    · rcases OrderedMap.mem_set hf with hold | rfl
      · exact hfields f hold
      · exact hv

end Readable

variable {n d fuel : Nat} {v w x : Json} {k : String} {cs rest : List Char}

mutual

/-- The value with all doubles made alike. -/
def blur : Json → Json
  | .float _ => .float .undefined
  | .arr items => .arr (blurItems items)
  | .obj fields => .obj (blurFields fields)
  | v => v

def blurItems : List Json → List Json
  | [] => []
  | x :: xs => blur x :: blurItems xs

def blurFields : List (String × Json) → List (String × Json)
  | [] => []
  | (k, v) :: fs => (k, blur v) :: blurFields fs

end

attribute [local simp] blur blurItems blurFields

theorem blurItems_eq (xs : List Json) : blurItems xs = xs.map blur := by
  induction xs with
  | nil => rfl
  | cons x xs ih => rw [blurItems, ih, List.map_cons]

theorem get?_blurFields (key : String) (fs : List (String × Json)) :
    OrderedMap.get? key (blurFields fs) = (OrderedMap.get? key fs).map blur := by
  induction fs with
  | nil => rfl
  | cons f fs ih =>
    obtain ⟨k, v⟩ := f
    by_cases hk : k = key
    · simp [OrderedMap.get?, hk]
    · simp [OrderedMap.get?, hk, ih]

theorem entries_blur (v : Json) : v.blur.entries = blurFields v.entries := by
  cases v <;> simp [entries]

theorem items_blur (v : Json) : v.blur.items = v.items.map blur := by
  cases v <;> simp [items, blurItems_eq]

theorem field_blur (key : String) (v : Json) : v.blur.field key = (v.field key).blur := by
  rw [field, field?, entries_blur, get?_blurFields, field, field?]
  cases OrderedMap.get? key v.entries <;> simp

theorem str?_blur (v : Json) : v.blur.str? = v.str? := by
  cases v <;> simp [str?]

theorem textAt?_blur (key : String) (v : Json) : v.blur.textAt? key = v.textAt? key := by
  rw [textAt?, field_blur, str?_blur, textAt?]

theorem skipSpace_newline (depth : Nat) (cs : List Char) :
    skipSpace ((newline depth).toList ++ cs) = skipSpace cs := by
  have hspaces (m : Nat) : (List.replicate m ' ' ++ cs).dropWhile isSpace = cs.dropWhile isSpace := by
    induction m with
    | zero => rfl
    | succ m ih =>
      rw [List.replicate_succ, List.cons_append, List.dropWhile_cons_of_pos rfl]
      exact ih
  rw [newline, String.toList_ofList, List.cons_append, skipSpace, List.dropWhile_cons_of_pos rfl]
  exact hspaces _

theorem endsNumber_newline (depth : Nat) (cs : List Char) :
    EndsNumber ((newline depth).toList ++ cs) := by
  intro c hc
  rw [newline, String.toList_ofList, List.cons_append] at hc
  obtain rfl : '\n' = c := by simpa using hc
  decide

theorem endsNumber_cons {c : Char} (hc : c.isDigit = false ∧ c ≠ '.' ∧ c ≠ 'e' ∧ c ≠ 'E')
    (cs : List Char) : EndsNumber (c :: cs) := by
  intro b hb
  obtain rfl : c = b := by simpa using hb
  exact hc

/-- A word or a number that can be read is read as a value. -/
theorem readValue_keyword (h : readKeyword cs = .ok (some (v, rest))) :
    readValue (fuel + 1) n cs = .ok (v, rest) := by
  have hother (c : Char) (hc : c = '\x22' ∨ c = '[' ∨ c = '\x7b') (r : List Char) :
      readKeyword (c :: r) = .ok none := by
    rcases hc with rfl | rfl | rfl <;> rfl
  rw [readValue]
  · rw [h]
    rfl
  all_goals
    rintro r rfl
    rw [hother _ (by decide)] at h
    cases h

theorem readString_quote {s : String} (h : Settled s.toList) (rest : List Char) :
    ∃ body, (quote s).toList ++ rest = '\x22' :: body ∧ readString body = .ok (s, rest) := by
  refine ⟨s.toList.flatMap escapeChar ++ '\x22' :: rest, ?_, ?_⟩
  · simp [quote]
  · simpa using readString_quoted h rest

theorem readValue_quote {s : String} (h : Settled s.toList) (rest : List Char) :
    readValue (fuel + 1) n ((quote s).toList ++ rest) = .ok (.str s, rest) := by
  obtain ⟨body, htext, hread⟩ := readString_quote h rest
  rw [htext]
  simp only [readValue, hread]
  rfl

/-- A text that begins with a character of a value: no space, no end of an array and no mark of
the order of bytes. -/
def StartsValue (cs : List Char) : Prop :=
  ∃ c r, cs = c :: r ∧ isSpace c = false ∧ c ≠ ']' ∧ c ≠ '\ufeff'

theorem startsValue_quote (s : String) : StartsValue (quote s).toList :=
  ⟨_, _, String.toList_ofList, rfl, by decide, by decide⟩

theorem startsValue_digit {c : Char} (hc : c.isDigit = true) (cs : List Char) :
    StartsValue (c :: cs) := by
  have hne (d : Char) (hd : d.isDigit = false) : c ≠ d := ne_of_isDigit hc hd
  refine ⟨c, cs, rfl, ?_, hne ']' rfl, hne '\ufeff' rfl⟩
  simp [isSpace, hne ' ' rfl, hne '\t' rfl, hne '\n' rfl, hne '\r' rfl]

theorem startsValue_int (i : Int) : StartsValue (toString i).toList := by
  rw [Int.toString_eq_repr, Int.repr_eq_if]
  split
  · obtain ⟨c, cs, hcs, hc⟩ := (wholeDigits_toDigits i.toNat).head
    rw [Nat.toList_repr, hcs]
    exact startsValue_digit hc cs
  · rw [String.toList_append]
    exact ⟨'-', _, rfl, rfl, by decide, by decide⟩

theorem startsValue_float (x : Double) : StartsValue (floatText x).toList := by
  cases x with
  | undefined => exact ⟨'N', _, rfl, rfl, by decide, by decide⟩
  | infinite negative =>
    cases negative with
    | false => exact ⟨'I', _, rfl, rfl, by decide, by decide⟩
    | true => exact ⟨'-', _, rfl, rfl, by decide, by decide⟩
  | finite negative m e =>
    obtain ⟨c, cs, hc, -, htext, hsigned⟩ := exists_floatText m e
    cases negative with
    | false =>
      rw [htext]
      exact startsValue_digit hc cs
    | true => exact ⟨_, _, hsigned, rfl, by decide, by decide⟩

@[simp] theorem pretty_null (d : Nat) : pretty d .null = "null" := rfl

@[simp] theorem pretty_bool (d : Nat) (b : Bool) :
    pretty d (.bool b) = if b then "true" else "false" := rfl

@[simp] theorem pretty_int (d : Nat) (i : Int) : pretty d (.int i) = toString i := rfl

@[simp] theorem pretty_float (d : Nat) (x : Double) : pretty d (.float x) = floatText x := rfl

@[simp] theorem pretty_str (d : Nat) (s : String) : pretty d (.str s) = quote s := rfl

@[simp] theorem pretty_arr_nil (d : Nat) : pretty d (.arr []) = "[]" := rfl

@[simp] theorem pretty_obj_nil (d : Nat) : pretty d (.obj []) = "\x7b\x7d" := rfl

theorem toList_pretty_arr (d : Nat) (x : Json) (xs : List Json) :
    (pretty d (.arr (x :: xs))).toList = '[' :: ((newline (d + 1)).toList ++
      ((pretty (d + 1) x).toList ++ ((prettyItems (d + 1) xs).toList ++
        ((newline d).toList ++ [']'])))) := by
  simp [pretty]

theorem toList_prettyItems_cons (d : Nat) (x : Json) (xs : List Json) :
    (prettyItems d (x :: xs)).toList = ',' :: ((newline d).toList ++
      ((pretty d x).toList ++ (prettyItems d xs).toList)) := by
  simp [prettyItems]

theorem toList_pretty_obj (d : Nat) (k : String) (v : Json) (fs : List (String × Json)) :
    (pretty d (.obj ((k, v) :: fs))).toList = '\x7b' :: ((newline (d + 1)).toList ++
      ((quote k).toList ++ (':' :: ' ' :: ((pretty (d + 1) v).toList ++
        ((prettyFields (d + 1) fs).toList ++ ((newline d).toList ++ ['\x7d'])))))) := by
  simp [pretty]

theorem toList_prettyFields_cons (d : Nat) (k : String) (v : Json) (fs : List (String × Json)) :
    (prettyFields d ((k, v) :: fs)).toList = ',' :: ((newline d).toList ++
      ((quote k).toList ++ (':' :: ' ' :: ((pretty d v).toList ++
        (prettyFields d fs).toList)))) := by
  simp [prettyFields]

theorem startsValue_pretty (d : Nat) (v : Json) : StartsValue (pretty d v).toList := by
  cases v with
  | null => exact ⟨'n', _, by rw [pretty_null]; rfl, rfl, by decide, by decide⟩
  | bool b =>
    cases b with
    | false => exact ⟨'f', _, by rw [pretty_bool]; rfl, rfl, by decide, by decide⟩
    | true => exact ⟨'t', _, by rw [pretty_bool]; rfl, rfl, by decide, by decide⟩
  | int i => exact startsValue_int i
  | float x => exact startsValue_float x
  | str s => exact startsValue_quote s
  | arr items =>
    cases items with
    | nil => exact ⟨'[', _, by rw [pretty_arr_nil]; rfl, rfl, by decide, by decide⟩
    | cons x xs => exact ⟨'[', _, toList_pretty_arr d x xs, rfl, by decide, by decide⟩
  | obj fields =>
    cases fields with
    | nil => exact ⟨'\x7b', _, by rw [pretty_obj_nil]; rfl, rfl, by decide, by decide⟩
    | cons f fs => exact ⟨'\x7b', _, toList_pretty_obj d f.1 f.2 fs, rfl, by decide, by decide⟩

theorem StartsValue.skipSpace_eq (h : StartsValue cs) (rest : List Char) :
    skipSpace (cs ++ rest) = cs ++ rest := by
  obtain ⟨c, r, rfl, hc, -⟩ := h
  rw [List.cons_append, skipSpace, List.dropWhile_cons_of_neg (by simp [hc])]

/-- A value whose text is read back, but for its doubles. -/
def ReadsBack (n : Nat) (v : Json) : Prop :=
  ∀ d fuel rest, EndsNumber rest → (pretty d v).toList.length ≤ fuel →
    ∃ w, readValue fuel n ((pretty d v).toList ++ rest) = .ok (w, rest) ∧ w.blur = v.blur

theorem skipSpace_cons {c : Char} (hc : isSpace c = false) (cs : List Char) :
    skipSpace (c :: cs) = c :: cs := by
  rw [skipSpace, List.dropWhile_cons_of_neg (by simp [hc])]

theorem readItems_pretty {xs : List Json} (hx : ReadsBack n x) (hxs : ∀ y ∈ xs, ReadsBack n y)
    (d e fuel : Nat) (rest : List Char)
    (hfuel : (pretty d x).toList.length + (prettyItems d xs).toList.length < fuel) :
    ∃ ws, readItems fuel n ((pretty d x).toList ++ ((prettyItems d xs).toList ++
        ((newline e).toList ++ ']' :: rest))) = .ok (ws, rest) ∧
      blurItems ws = blurItems (x :: xs) := by
  induction xs generalizing x fuel with
  | nil =>
    obtain ⟨f, rfl⟩ := Nat.exists_eq_succ_of_ne_zero (Nat.ne_zero_of_lt hfuel)
    have hnil : (prettyItems d []).toList = [] := rfl
    obtain ⟨w, hw, hblur⟩ := hx d f ((newline e).toList ++ ']' :: rest)
      (endsNumber_newline _ _) (by omega)
    refine ⟨[w], ?_, by simp [hblur]⟩
    rw [hnil, List.nil_append]
    simp only [readItems, hw, bind, Except.bind, skipSpace_newline,
      skipSpace_cons (c := ']') rfl]
    rfl
  | cons y ys ih =>
    obtain ⟨f, rfl⟩ := Nat.exists_eq_succ_of_ne_zero (Nat.ne_zero_of_lt hfuel)
    rw [toList_prettyItems_cons] at hfuel ⊢
    simp only [List.length_cons, List.length_append] at hfuel
    -- the comma before an item pays for the fuel that a step takes
    obtain ⟨ws, hws, hblurs⟩ := ih (hxs y (by simp)) (fun z hz => hxs z (by simp [hz])) f (by omega)
    obtain ⟨w, hw, hblur⟩ := hx d f (',' :: ((newline d).toList ++ ((pretty d y).toList ++
      ((prettyItems d ys).toList ++ ((newline e).toList ++ ']' :: rest)))))
      (endsNumber_cons (by decide) _) (by omega)
    refine ⟨w :: ws, ?_, by simp only [blurItems, hblur, hblurs]⟩
    simp only [List.cons_append, List.append_assoc]
    simp only [readItems, hw, bind, Except.bind, skipSpace_cons (c := ',') rfl, skipSpace_newline,
      (startsValue_pretty d y).skipSpace_eq, hws]
    rfl

/-- The fields of an object up to its end are read back with their keys. -/
theorem readFields_pretty {fs : List (String × Json)} (hk : Settled k.toList)
    (hv : ReadsBack n v) (hks : ∀ f ∈ fs, Settled f.1.toList) (hvs : ∀ f ∈ fs, ReadsBack n f.2)
    (d e fuel : Nat) (rest : List Char)
    (hfuel : (pretty d v).toList.length + (prettyFields d fs).toList.length < fuel) :
    ∃ gs, readFields fuel n ((quote k).toList ++ (':' :: ' ' :: ((pretty d v).toList ++
        ((prettyFields d fs).toList ++ ((newline e).toList ++ '\x7d' :: rest))))) =
        .ok (gs, rest) ∧ gs.map Prod.fst = k :: fs.map Prod.fst ∧
      blurFields gs = blurFields ((k, v) :: fs) := by
  induction fs generalizing k v fuel with
  | nil =>
    obtain ⟨f, rfl⟩ := Nat.exists_eq_succ_of_ne_zero (Nat.ne_zero_of_lt hfuel)
    have hnil : (prettyFields d []).toList = [] := rfl
    rw [hnil, List.nil_append]
    obtain ⟨body, htext, hkey⟩ := readString_quote hk
      (':' :: ' ' :: ((pretty d v).toList ++ ((newline e).toList ++ '\x7d' :: rest)))
    obtain ⟨w, hw, hblur⟩ := hv d f ((newline e).toList ++ '\x7d' :: rest)
      (endsNumber_newline _ _) (by omega)
    refine ⟨[(k, w)], ?_, rfl, by simp [hblur]⟩
    have hspace : skipSpace (' ' :: ((pretty d v).toList ++ ((newline e).toList ++
        '\x7d' :: rest))) = (pretty d v).toList ++ ((newline e).toList ++ '\x7d' :: rest) :=
      (startsValue_pretty d v).skipSpace_eq _
    rw [htext]
    simp only [readFields, hkey, bind, Except.bind, skipSpace_cons (c := ':') rfl, hspace, hw,
      skipSpace_newline, skipSpace_cons (c := '\x7d') rfl]
    rfl
  | cons g gs ih =>
    obtain ⟨k', v'⟩ := g
    obtain ⟨f, rfl⟩ := Nat.exists_eq_succ_of_ne_zero (Nat.ne_zero_of_lt hfuel)
    rw [toList_prettyFields_cons] at hfuel ⊢
    simp only [List.length_cons, List.length_append] at hfuel
    have hv' : ReadsBack n v' := hvs (k', v') (by simp)
    obtain ⟨ws, hws, hkeys, hblurs⟩ := ih (hks (k', v') (by simp)) hv'
      (fun z hz => hks z (by simp [hz])) (fun z hz => hvs z (by simp [hz])) f (by omega)
    simp only [List.cons_append, List.append_assoc]
    let tail := (newline d).toList ++ ((quote k').toList ++ (':' :: ' ' :: ((pretty d v').toList ++
      ((prettyFields d gs).toList ++ ((newline e).toList ++ '\x7d' :: rest)))))
    obtain ⟨body, htext, hkey⟩ := readString_quote hk
      (':' :: ' ' :: ((pretty d v).toList ++ (',' :: tail)))
    obtain ⟨w, hw, hblur⟩ := hv d f (',' :: tail) (endsNumber_cons (by decide) _) (by omega)
    refine ⟨(k, w) :: ws, ?_, by simp [hkeys], by simp only [blurFields, hblur, hblurs]⟩
    have hspace : skipSpace (' ' :: ((pretty d v).toList ++ (',' :: tail))) =
        (pretty d v).toList ++ (',' :: tail) := (startsValue_pretty d v).skipSpace_eq _
    have hnext : skipSpace tail = (quote k').toList ++ (':' :: ' ' :: ((pretty d v').toList ++
        ((prettyFields d gs).toList ++ ((newline e).toList ++ '\x7d' :: rest)))) := by
      rw [skipSpace_newline, (startsValue_quote k').skipSpace_eq]
    rw [htext]
    simp only [readFields, hkey, bind, Except.bind, skipSpace_cons (c := ':') rfl, hspace, hw,
      skipSpace_cons (c := ',') rfl, hnext, hws]
    rfl

theorem set_append {m : OrderedMap Json} (hk : k ∉ m.map Prod.fst) (v : Json) :
    OrderedMap.set k v m = m ++ [(k, v)] := by
  induction m with
  | nil => rfl
  | cons entry rest ih =>
    obtain ⟨hne, hrest⟩ : k ≠ entry.1 ∧ k ∉ rest.map Prod.fst := by simpa using hk
    simp [OrderedMap.set, Ne.symm hne, ih hrest]

/-- Entries with keys of their own make up the map by themselves. -/
theorem ofEntries_of_nodup {fs : List (String × Json)} (h : (fs.map Prod.fst).Nodup) :
    OrderedMap.ofEntries fs = fs := by
  have hfold (m : OrderedMap Json) (hm : ((m ++ fs).map Prod.fst).Nodup) :
      fs.foldl (fun m f => m.set f.1 f.2) m = m ++ fs := by
    clear h
    induction fs generalizing m with
    | nil => simp
    | cons f fs ih =>
      obtain ⟨k, v⟩ := f
      have hassoc : m ++ (k, v) :: fs = (m ++ [(k, v)]) ++ fs := by simp
      have hnew : k ∉ m.map Prod.fst := by
        rw [List.map_append, List.nodup_append] at hm
        exact fun hmem => hm.2.2 k hmem k (by simp) rfl
      have hstep := ih (m ++ [(k, v)]) (hassoc ▸ hm)
      rw [← set_append hnew] at hstep
      rw [hassoc, ← set_append hnew]
      exact hstep
  exact hfold [] h

theorem readsBack_of_keyword (hread : ∀ d rest, EndsNumber rest →
    ∃ w, readKeyword ((pretty d v).toList ++ rest) = .ok (some (w, rest)) ∧ w.blur = v.blur) :
    ReadsBack n v := by
  intro d fuel rest hrest hfuel
  obtain ⟨c, r, hstart, -⟩ := startsValue_pretty d v
  obtain ⟨f, rfl⟩ : ∃ f, fuel = f + 1 := by
    rw [hstart, List.length_cons] at hfuel
    exact ⟨fuel - 1, by omega⟩
  obtain ⟨w, hw, hblur⟩ := hread d rest hrest
  exact ⟨w, readValue_keyword hw, hblur⟩

theorem readsBack_arr {items : List Json} (hn : n < depthLimit)
    (hitems : ∀ x ∈ items, ReadsBack (n + 1) x) : ReadsBack n (.arr items) := by
  intro d fuel rest hrest hfuel
  have hdepth : ¬ depthLimit ≤ n := Nat.not_le.mpr hn
  cases items with
  | nil =>
    obtain ⟨f, rfl⟩ : ∃ f, fuel = f + 1 := ⟨fuel - 1, by
      have : "[]".toList.length = 2 := rfl
      rw [pretty_arr_nil] at hfuel
      omega⟩
    refine ⟨.arr [], ?_, rfl⟩
    have htext : "[]".toList ++ rest = '[' :: ']' :: rest := rfl
    rw [pretty_arr_nil, htext]
    simp only [readValue, hdepth, if_false, skipSpace_cons (c := ']') rfl]
  | cons x xs =>
    have hfirst : 0 < (newline (d + 1)).toList.length := by simp [newline]
    rw [toList_pretty_arr] at hfuel ⊢
    simp only [List.length_cons, List.length_append] at hfuel
    obtain ⟨f, rfl⟩ : ∃ f, fuel = f + 1 := ⟨fuel - 1, by omega⟩
    have hx := hitems x (by simp)
    have hxs : ∀ y ∈ xs, ReadsBack (n + 1) y := fun y hy => hitems y (by simp [hy])
    obtain ⟨ws, hws, hblur⟩ := readItems_pretty hx hxs (d + 1) d f rest (by omega)
    refine ⟨.arr ws, ?_, by simp only [blur, hblur]⟩
    obtain ⟨c, r, hstart, hspace, hbracket, -⟩ := startsValue_pretty (d + 1) x
    rw [hstart] at hws ⊢
    simp only [List.cons_append, List.append_assoc, List.nil_append] at hws ⊢
    rw [readValue, if_neg hdepth, skipSpace_newline, skipSpace_cons hspace]
    split
    · rename_i heq
      exact absurd (List.cons.inj heq).1 hbracket
    · rw [hws]
      rfl

theorem readsBack_obj {fields : List (String × Json)} (hn : n < depthLimit)
    (hkeys : (fields.map Prod.fst).Nodup) (hsettled : ∀ f ∈ fields, Settled f.1.toList)
    (hfields : ∀ f ∈ fields, ReadsBack (n + 1) f.2) : ReadsBack n (.obj fields) := by
  intro d fuel rest hrest hfuel
  have hdepth : ¬ depthLimit ≤ n := Nat.not_le.mpr hn
  cases fields with
  | nil =>
    obtain ⟨f, rfl⟩ : ∃ f, fuel = f + 1 := ⟨fuel - 1, by
      have : "\x7b\x7d".toList.length = 2 := rfl
      rw [pretty_obj_nil] at hfuel
      omega⟩
    refine ⟨.obj [], ?_, rfl⟩
    have htext : "\x7b\x7d".toList ++ rest = '\x7b' :: '\x7d' :: rest := rfl
    rw [pretty_obj_nil, htext]
    simp only [readValue, hdepth, if_false, skipSpace_cons (c := '\x7d') rfl]
  | cons entry fs =>
    obtain ⟨k, v⟩ := entry
    have hfirst : 0 < (newline (d + 1)).toList.length := by simp [newline]
    rw [toList_pretty_obj] at hfuel ⊢
    simp only [List.length_cons, List.length_append] at hfuel
    obtain ⟨f, rfl⟩ : ∃ f, fuel = f + 1 := ⟨fuel - 1, by omega⟩
    have hk : Settled k.toList := hsettled (k, v) (by simp)
    have hv : ReadsBack (n + 1) v := hfields (k, v) (by simp)
    have hks : ∀ g ∈ fs, Settled g.1.toList := fun g hg => hsettled g (by simp [hg])
    have hvs : ∀ g ∈ fs, ReadsBack (n + 1) g.2 := fun g hg => hfields g (by simp [hg])
    obtain ⟨gs, hgs, hgkeys, hblur⟩ := readFields_pretty hk hv hks hvs (d + 1) d f rest (by omega)
    have hgnodup : (gs.map Prod.fst).Nodup := hgkeys ▸ hkeys
    refine ⟨.obj gs, ?_, by simp only [blur, hblur]⟩
    obtain ⟨body, htext, -⟩ := readString_quote hk (':' :: ' ' :: ((pretty (d + 1) v).toList ++
      ((prettyFields (d + 1) fs).toList ++ ((newline d).toList ++ '\x7d' :: rest))))
    simp only [List.cons_append, List.append_assoc, List.nil_append]
    rw [htext] at hgs ⊢
    rw [readValue, if_neg hdepth, skipSpace_newline, skipSpace_cons rfl]
    split
    · rename_i heq
      exact absurd (List.cons.inj heq).1 (by decide)
    · simp only [hgs, Except.map, ofEntries_of_nodup hgnodup]

/-- Whatever can be read is written so that it is read back. -/
theorem readsBack_of_readable (h : Readable n v) : ReadsBack n v := by
  induction h with
  | null => exact readsBack_of_keyword fun d rest _ => ⟨.null, by rw [pretty_null]; rfl, rfl⟩
  | bool b =>
    refine readsBack_of_keyword fun d rest _ => ⟨.bool b, ?_, rfl⟩
    rw [pretty_bool]
    cases b <;> rfl
  | int hi => exact readsBack_of_keyword fun d rest hrest => ⟨_, readKeyword_int hi hrest, rfl⟩
  | float x =>
    refine readsBack_of_keyword fun d rest hrest => ?_
    obtain ⟨y, hy⟩ := readKeyword_float x hrest
    exact ⟨.float y, hy, rfl⟩
  | str hs =>
    intro d fuel rest hrest hfuel
    obtain ⟨f, rfl⟩ : ∃ f, fuel = f + 1 := by
      rw [pretty_str, quote, String.toList_ofList] at hfuel
      exact ⟨fuel - 1, by simp at hfuel; omega⟩
    exact ⟨_, readValue_quote hs rest, rfl⟩
  | arr hn hitems ih => exact readsBack_arr hn ih
  | obj hn hkeys hsettled hfields ih => exact readsBack_obj hn hkeys hsettled ih

theorem return_not_mem_escapeUnit (u : Nat) : '\r' ∉ escapeUnit u := by
  have hdigit (m : Nat) : Text.hexDigit (m % 16) ≠ '\r' := by
    have hall : ∀ m : Fin 16, Text.hexDigit m ≠ '\r' := by decide
    exact hall ⟨m % 16, Nat.mod_lt _ (by decide)⟩
  simp [escapeUnit, Text.hex, (hdigit _).symm]

theorem return_not_mem_escapeChar (c : Char) : '\r' ∉ escapeChar c := by
  have hunit := return_not_mem_escapeUnit
  have hcase {p : Prop} [Decidable p] {cs ds : List Char} (hcs : '\r' ∉ cs)
      (hds : ¬p → '\r' ∉ ds) : '\r' ∉ (if p then cs else ds) :=
    iteInduction (motive := ('\r' ∉ ·)) (fun _ => hcs) hds
  unfold escapeChar
  refine hcase (by decide) fun _ => hcase (by decide) fun _ => hcase (by decide) fun _ => ?_
  refine hcase (by decide) fun hreturn => ?_
  refine hcase (by decide) fun _ => hcase (by decide) fun _ => hcase (by decide) fun _ => ?_
  refine hcase (fun h => hreturn (List.mem_singleton.mp h).symm) fun _ => ?_
  refine hcase (hunit _) fun _ => ?_
  split
  · exact hunit _
  · exact fun h => (List.mem_append.mp h).elim (hunit _) (hunit _)

theorem return_not_mem_quote (s : String) : '\r' ∉ (quote s).toList := by
  simp [quote, return_not_mem_escapeChar]

theorem WholeDigits.isDigit (h : WholeDigits cs) : ∀ d ∈ cs, d.isDigit = true := by
  rcases h with rfl | ⟨c, cs, rfl, -, hall⟩
  · simp
  · exact hall

theorem return_not_mem_digits (h : ∀ d ∈ cs, d.isDigit = true) : '\r' ∉ cs :=
  fun hmem => absurd (h _ hmem) (by decide)

theorem PowerText.return_not_mem (h : PowerText cs) : '\r' ∉ cs := by
  obtain ⟨sign, ds, rfl, hsign, -, hds⟩ := h
  have hrest := return_not_mem_digits hds
  rcases hsign with rfl | rfl <;> simpa using hrest

theorem DoubleText.return_not_mem (h : DoubleText cs) : '\r' ∉ cs := by
  cases h with
  | fraction hds hne hfs =>
    simpa using ⟨return_not_mem_digits hds.isDigit, return_not_mem_digits hfs⟩
  | power hds hps => simpa using ⟨return_not_mem_digits hds.isDigit, hps.return_not_mem⟩
  | both hds hne hfs hps =>
    simpa using ⟨return_not_mem_digits hds.isDigit, return_not_mem_digits hfs,
      hps.return_not_mem⟩

theorem return_not_mem_float (x : Double) : '\r' ∉ (floatText x).toList := by
  cases x with
  | undefined => decide
  | infinite negative => cases negative <;> decide
  | finite negative m e =>
    have hform := (doubleText_layOut (Double.shortest m e).1 (Double.shortest m e).2).return_not_mem
    cases negative <;> simpa [floatText, Double.text] using hform

theorem return_not_mem_newline (d : Nat) : '\r' ∉ (newline d).toList := by
  simp [newline]

theorem return_not_mem_prettyItems {d : Nat} {xs : List Json}
    (h : ∀ x ∈ xs, '\r' ∉ (pretty d x).toList) : '\r' ∉ (prettyItems d xs).toList := by
  induction xs with
  | nil => simp [prettyItems]
  | cons x xs ih =>
    have hx := h x (by simp)
    have hxs := ih fun y hy => h y (by simp [hy])
    rw [toList_prettyItems_cons]
    simp [return_not_mem_newline, hx, hxs]

theorem return_not_mem_prettyFields {d : Nat} {fs : List (String × Json)}
    (h : ∀ f ∈ fs, '\r' ∉ (pretty d f.2).toList) : '\r' ∉ (prettyFields d fs).toList := by
  induction fs with
  | nil => simp [prettyFields]
  | cons f fs ih =>
    have hf := h f (by simp)
    have hfs := ih fun g hg => h g (by simp [hg])
    rw [toList_prettyFields_cons]
    simp [return_not_mem_newline, return_not_mem_quote, hf, hfs]

/-- Lines of a written value end in no other way than by a newline. -/
theorem return_not_mem_pretty (h : Readable n v) (d : Nat) : '\r' ∉ (pretty d v).toList := by
  induction h generalizing d with
  | null =>
    rw [pretty_null]
    decide
  | bool b =>
    rw [pretty_bool]
    cases b <;> decide
  | int => exact not_mem_int rfl (by decide) _
  | float x => exact return_not_mem_float x
  | str => exact return_not_mem_quote _
  | @arr n items hn hitems ih =>
    cases items with
    | nil =>
      rw [pretty_arr_nil]
      decide
    | cons x xs =>
      have hx := ih x (by simp) (d + 1)
      have hxs := return_not_mem_prettyItems fun y hy => ih y (List.mem_cons_of_mem x hy) (d + 1)
      rw [toList_pretty_arr]
      simp [return_not_mem_newline, hx, hxs]
  | @obj n fields hn hkeys hsettled hfields ih =>
    cases fields with
    | nil =>
      rw [pretty_obj_nil]
      decide
    | cons f fs =>
      have hf := ih f (by simp) (d + 1)
      have hfs := return_not_mem_prettyFields fun g hg =>
        ih g (List.mem_cons_of_mem f hg) (d + 1)
      rw [toList_pretty_obj]
      simp [return_not_mem_newline, return_not_mem_quote, hf, hfs]

theorem plainNewlines_of_not_mem (h : '\r' ∉ cs) : Text.plainNewlines cs = cs := by
  induction cs with
  | nil => rfl
  | cons c cs ih =>
    obtain ⟨hc, hcs⟩ : '\r' ≠ c ∧ '\r' ∉ cs := by simpa using h
    rw [Text.plainNewlines]
    · rw [if_neg (Ne.symm hc), ih hcs]
    · intro r hcr
      exact absurd hcr.symm hc

/-- A file that a value was written to is read as that value, but for its doubles. -/
theorem parse_fileText (h : Readable 0 v) :
    ∃ w, parseChars (Text.plainNewlines v.fileText.toList) = .ok w ∧ w.blur = v.blur := by
  rw [fileText, plainNewlines_of_not_mem (return_not_mem_pretty h 0)]
  have hstart := startsValue_pretty 0 v
  obtain ⟨w, hw, hblur⟩ := readsBack_of_readable h 0 (2 * (pretty 0 v).toList.length + 2) []
    (by simp [EndsNumber]) (by omega)
  rw [← hstart.skipSpace_eq, List.append_nil] at hw
  refine ⟨w, ?_, hblur⟩
  have hmark : (pretty 0 v).toList.head? ≠ some '\ufeff' := by
    obtain ⟨c, r, htext, -, -, hc⟩ := hstart
    simpa [htext] using hc
  simp only [parseChars, hmark, if_false, hw, bind, Except.bind]
  rfl

end DocSite.Json
