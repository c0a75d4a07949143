import DocSite.Proofs.Deploy.Checkout
import DocSite.Proofs.Notebook.Figures

/-!
The links to notebooks on the pages that a conversion makes. The notebook of a page is looked up by
the name of the page among all that lies below the notebooks, so a page links to the first that has
its name, which need not be the one it was made of.
-/

namespace DocSite.Notebook

open Text

section Links

variable {title notebook other : String} {p q : List String}

/-- The line of a published page that has the links to a notebook. -/
def linkLine (notebook : String) : List Char :=
  ("&nbsp;&nbsp;".intercalate (launchLinks notebook)).toList

/-- An address stands in a link between texts that do not depend on it. -/
theorem exists_imageLink (id base source alt : String) (hid : '\n' ∉ id.toList)
    (hbase : '\n' ∉ base.toList) (hsource : '\n' ∉ source.toList) (halt : '\n' ∉ alt.toList) :
    ∃ front back : List Char, '\n' ∉ '<' :: front ∧ '\n' ∉ back ∧ ∀ address,
      (Mdx.imageLink id (base ++ address) source alt).toList =
        '<' :: front ++ (address.toList ++ back) := by
  refine ⟨"a href=\"".toList ++ base.toList, "\" id=\"".toList ++ (id.toList ++
    ("\" target=\"_blank\" rel=\"noopener noreferrer\">".toList ++
      ((Mdx.image source alt).toList ++ "</a>".toList))), ?_, ?_, fun address => ?_⟩
  · simp only [List.mem_cons, List.mem_append, not_or]
    exact ⟨by decide, not_mem_ofList rfl, hbase⟩
  · unfold Mdx.image
    simp only [String.toList_append, List.mem_append, not_or]
    exact ⟨not_mem_ofList rfl, hid, not_mem_ofList rfl, ⟨⟨⟨⟨not_mem_ofList rfl, hsource⟩,
      not_mem_ofList rfl⟩, halt⟩, not_mem_ofList rfl⟩, not_mem_ofList rfl⟩
  · unfold Mdx.imageLink
    simp only [String.toList_append, List.append_assoc]
    rfl

/-- The path of a notebook stands in the links three times, between texts that do not depend on
it. -/
theorem exists_launchLinks : ∃ f₁ b₁ f₂ b₂ f₃ b₃ : List Char,
    (∀ cs ∈ ['<' :: f₁, b₁, '<' :: f₂, b₂, '<' :: f₃, b₃], '\n' ∉ cs) ∧
      ∀ notebook, (launchLinks notebook).map String.toList =
        ['<' :: f₁ ++ (notebook.toList ++ b₁), '<' :: f₂ ++ (notebook.toList ++ b₂),
          '<' :: f₃ ++ (notebook.toList ++ b₃)] := by
  have hjoined {s t : String} (hs : '\n' ∉ s.toList) (ht : '\n' ∉ t.toList) :
      '\n' ∉ (s ++ t).toList := by
    rw [String.toList_append]
    exact List.not_mem_append hs ht
  obtain ⟨f₁, b₁, hf₁, hb₁, h₁⟩ := exists_imageLink "openKaggle"
    ("https://kaggle.com/kernels/welcome?src=https://github.com/" ++
      "pixeltable/pixeltable/blob/release/")
    "https://kaggle.com/static/images/open-in-kaggle.svg" "Open in Kaggle" (not_mem_ofList rfl)
    (hjoined (not_mem_ofList rfl) (not_mem_ofList rfl)) (not_mem_ofList rfl) (not_mem_ofList rfl)
  obtain ⟨f₂, b₂, hf₂, hb₂, h₂⟩ := exists_imageLink "openColab"
    ("https://colab.research.google.com/github/" ++ "pixeltable/pixeltable/blob/release/")
    "https://colab.research.google.com/assets/colab-badge.svg" "Open in Colab" (not_mem_ofList rfl)
    (hjoined (not_mem_ofList rfl) (not_mem_ofList rfl)) (not_mem_ofList rfl) (not_mem_ofList rfl)
  obtain ⟨f₃, b₃, hf₃, hb₃, h₃⟩ := exists_imageLink "downloadNotebook"
    "https://raw.githubusercontent.com/pixeltable/pixeltable/refs/tags/release/"
    "https://img.shields.io/badge/%E2%AC%87-Download%20Notebook-blue" "Download Notebook"
    (not_mem_ofList rfl) (not_mem_ofList rfl) (not_mem_ofList rfl) (not_mem_ofList rfl)
  refine ⟨f₁, b₁, f₂, b₂, f₃, b₃, ?_, fun notebook => ?_⟩
  · simp only [List.forall_mem_cons]
    exact ⟨hf₁, hb₁, hf₂, hb₂, hf₃, hb₃, List.forall_mem_nil _⟩
  · simp only [launchLinks, List.map_cons, List.map_nil, ← String.append_assoc, h₁, h₂, h₃]

theorem isInfix_launchLinks (notebook : String) :
    ∀ link ∈ launchLinks notebook, notebook.toList <:+: link.toList := by
  obtain ⟨f₁, b₁, f₂, b₂, f₃, b₃, -, hlinks⟩ := exists_launchLinks
  have hmap : ∀ cs ∈ (launchLinks notebook).map String.toList, notebook.toList <:+: cs := by
    have hpart (front back : List Char) :
        notebook.toList <:+: front ++ (notebook.toList ++ back) :=
      ⟨front, back, List.append_assoc ..⟩
    rw [hlinks]
    simp only [List.forall_mem_cons]
    exact ⟨hpart _ _, hpart _ _, hpart _ _, List.forall_mem_nil _⟩
  rwa [List.forall_mem_map] at hmap

/-- The path of a notebook can be told from the links to it. -/
theorem linkLine_injective (h : linkLine notebook = linkLine other) : notebook = other := by
  obtain ⟨f₁, b₁, f₂, b₂, f₃, b₃, -, hlinks⟩ := exists_launchLinks
  simp only [linkLine, String.toList_intercalate, hlinks, List.intercalate_cons_cons,
    List.intercalate_singleton, List.append_assoc, List.append_right_inj] at h
  have hlength := congrArg List.length h
  simp only [List.length_append] at hlength
  exact String.toList_inj.mp (List.append_inj_left h (by omega))

theorem notebookPath_injective (hp : ∀ s ∈ p, '/' ∉ s.toList) (hq : ∀ s ∈ q, '/' ∉ s.toList)
    (h : notebookPath p = notebookPath q) : p = q := by
  have hsplit {p : List String} (hp : ∀ s ∈ p, '/' ∉ s.toList) :
      splitChar '/' (notebookPath p).toList = ("docs" :: "notebooks" :: p).map String.toList := by
    rw [notebookPath, String.toList_intercalate]
    refine splitChar_intercalate_of_not_mem (by simp) ?_
    simp only [List.map_cons, List.forall_mem_cons, List.forall_mem_map]
    exact ⟨by decide, by decide, hp⟩
  have hmap := (hsplit hp).symm.trans ((congrArg (splitChar '/' ·.toList) h).trans (hsplit hq))
  have hparts := List.map_inj_right (fun _ _ => String.toList_inj.mp) |>.mp hmap
  exact (List.cons.inj (List.cons.inj hparts).2).2

theorem newline_not_mem_linkLine (h : '\n' ∉ notebook.toList) : '\n' ∉ linkLine notebook := by
  obtain ⟨f₁, b₁, f₂, b₂, f₃, b₃, hnewline, hlinks⟩ := exists_launchLinks
  simp only [List.forall_mem_cons] at hnewline
  rw [linkLine, String.toList_intercalate, hlinks]
  simp only [List.intercalate_cons_cons, List.intercalate_singleton, List.mem_append, not_or]
  have hsep : '\n' ∉ "&nbsp;&nbsp;".toList := by decide
  obtain ⟨hf₁, hb₁, hf₂, hb₂, hf₃, hb₃, -⟩ := hnewline
  exact ⟨⟨⟨hf₁, h, hb₁⟩, hsep⟩, ⟨⟨hf₂, h, hb₂⟩, hsep⟩, hf₃, h, hb₃⟩

theorem head?_linkLine (notebook : String) : (linkLine notebook).head? = some '<' := by
  obtain ⟨f₁, b₁, f₂, b₂, f₃, b₃, -, hlinks⟩ := exists_launchLinks
  rw [linkLine, String.toList_intercalate, hlinks]
  rfl

/-- The head of a page has the links to its notebook in a line of their own. -/
theorem exists_publishedHead (htitle : '\n' ∉ title.toList) (hnotebook : '\n' ∉ notebook.toList) :
    ∃ ls : List (List Char), publishedHead title notebook = unlines ls ++ ['\n'] ∧ ls ≠ [] ∧
      (∀ l ∈ ls, '\n' ∉ l) ∧ ls[4]? = some (linkLine notebook) := by
  obtain ⟨tip₁, tip₂, tip₃, hhead, htips, hend⟩ : ∃ tip₁ tip₂ tip₃ : String,
      headLines title notebook = ["---", "title: \"" ++ title ++ "\"", "icon: \"notebook\"", "---",
        "&nbsp;&nbsp;".intercalate (launchLinks notebook), "", tip₁, tip₂, tip₃].map
          ("        " ++ ·) ∧
      (∀ t ∈ [tip₁, tip₂, tip₃], '\n' ∉ t.toList ∧ t.toList.all isIndent = false) ∧
      ∃ front, tip₃.toList = front ++ ['>'] := by
    refine ⟨_, _, _, rfl, ?_, "above links.</Tip".toList, rfl⟩
    have htip {cs : List Char} (hcs : cs.contains '\n' = false) (hindent : cs.all isIndent = false) :
        '\n' ∉ (String.ofList cs).toList ∧ (String.ofList cs).toList.all isIndent = false :=
      ⟨not_mem_ofList hcs, apply_ofList (f := (·.all isIndent)) hindent⟩
    simp only [List.forall_mem_cons]
    exact ⟨htip rfl rfl, htip rfl rfl, htip rfl rfl, List.forall_mem_nil _⟩
  simp only [List.forall_mem_cons] at htips
  obtain ⟨⟨hline₁, htip₁⟩, ⟨hline₂, htip₂⟩, ⟨hline₃, htip₃⟩, -⟩ := htips
  let titleLine := "title: \"".toList ++ title.toList ++ "\"".toList
  let others := [titleLine, "icon: \"notebook\"".toList, "---".toList, linkLine notebook, [],
    tip₁.toList, tip₂.toList, tip₃.toList]
  have hjoin : ("\n".intercalate (headLines title notebook)).toList =
      unlines (("---".toList :: others).map ("        ".toList ++ ·)) := by
    rw [hhead, String.toList_intercalate]
    simp only [List.map_cons, List.map_nil, String.toList_append]
    rfl
  have hnewline : ∀ l ∈ "---".toList :: others, '\n' ∉ l := by
    have htitleLine : '\n' ∉ titleLine := by simp [titleLine, htitle]
    simp only [others, List.forall_mem_cons]
    exact ⟨by decide, htitleLine, by decide, by decide, newline_not_mem_linkLine hnotebook,
      List.not_mem_nil, hline₁, hline₂, hline₃, List.forall_mem_nil _⟩
  have hlinks : (linkLine notebook).all isIndent = false := by
    obtain ⟨cs, hcs⟩ := List.head?_eq_some_iff.mp (head?_linkLine notebook)
    rw [hcs]
    rfl
  have hblank : ∀ l ∈ "---".toList :: others, l.all isIndent = false ∨ l = [] := by
    simp only [others, List.forall_mem_cons]
    exact ⟨.inl rfl, .inl rfl, .inl rfl, .inl rfl, .inl hlinks, .inr trivial, .inl htip₁,
      .inl htip₂, .inl htip₃, List.forall_mem_nil _⟩
  have hkeep : ("---".toList :: others).map (fun l => if l.all isIndent then [] else l) =
      "---".toList :: others := by
    refine (List.map_congr_left fun l hl => ?_).trans (List.map_id _)
    rcases hblank l hl with hl | rfl
    · rw [hl]
      rfl
    · rfl
  have hstrip : strip (unlines ("---".toList :: others)) = unlines ("---".toList :: others) := by
    obtain ⟨front, hfront⟩ := hend
    have hsplit : unlines ("---".toList :: others) =
        (unlines ("---".toList :: others.dropLast) ++ ['\n'] ++ front) ++ ['>'] := by
      have hlast : "---".toList :: others =
          ("---".toList :: others.dropLast) ++ [tip₃.toList] := rfl
      rw [hlast, unlines, intercalate_concat_of_ne_nil _ _ (by simp), hfront, unlines]
      simp only [List.append_assoc]
    rw [hsplit]
    refine strip_append_cons (fun a ha => ?_) rfl []
    cases (ha : some '-' = some a)
    rfl
  have hmargin : ∀ c ∈ "        ".toList, isIndent c = true := List.all_eq_true.mp rfl
  have hdash : ∀ c ∈ "---".toList.head?, isIndent c = false := by
    rintro c ⟨⟩
    rfl
  refine ⟨"---".toList :: others, ?_, by simp, hnewline, rfl⟩
  rw [publishedHead, hjoin, dedent_indented hmargin (by decide) hdash hnewline, hkeep, hstrip]

/-- Whether a page has the links to a notebook below its title. -/
def LinksTo (text : String) (parts : List String) : Prop :=
  (lines text.toList)[4]? = some (linkLine (notebookPath parts))

instance (text : String) (parts : List String) : Decidable (LinksTo text parts) :=
  inferInstanceAs (Decidable (_ = _))

/-- What every published page is like. -/
def IsPublished (text : String) (parts : List String) : Prop :=
  ∃ title body, '\n' ∉ title ∧
    text = String.ofList (publishedHead (String.ofList title) (notebookPath parts) ++ body)

theorem newline_not_mem_notebookPath (hp : ∀ s ∈ p, '\n' ∉ s.toList) :
    '\n' ∉ (notebookPath p).toList := by
  have hall : ∀ c ∈ (notebookPath p).toList, c ≠ '\n' := by
    rw [notebookPath, String.toList_intercalate]
    refine forall_mem_intercalate (by simp) ?_
    simp only [List.map_cons, List.forall_mem_cons, List.forall_mem_map]
    exact ⟨by simp, by simp, fun s hs c hc hnewline => hp s hs (hnewline ▸ hc)⟩
  exact fun hmem => hall _ hmem rfl

theorem IsPublished.linksTo {text : String} (h : IsPublished text p)
    (hp : ∀ s ∈ p, '\n' ∉ s.toList) : LinksTo text p := by
  obtain ⟨title, body, htitle, rfl⟩ := h
  have htext : '\n' ∉ (String.ofList title).toList := by rwa [String.toList_ofList]
  obtain ⟨ls, hhead, hne, hnewline, hline⟩ :=
    exists_publishedHead htext (newline_not_mem_notebookPath hp)
  have hlines : lines (unlines ls ++ ['\n'] ++ body) = ls ++ lines body := by
    rw [List.append_assoc, List.singleton_append, lines, splitChar_append, unlines,
      splitChar_intercalate_of_not_mem hne hnewline]
    rfl
  rw [LinksTo, String.toList_ofList, hhead, hlines, List.getElem?_append_left, hline]
  exact (List.getElem?_eq_some_iff.mp hline).1

/-- A page links to one notebook only. -/
theorem LinksTo.unique {text : String} (h : LinksTo text p) (h' : LinksTo text q)
    (hp : ∀ s ∈ p, '/' ∉ s.toList) (hq : ∀ s ∈ q, '/' ∉ s.toList) : p = q :=
  notebookPath_injective hp hq (linkLine_injective (Option.some.inj (h.symm.trans h')))

end Links

section Publishing

variable {k k' : Desk} {page other notebooks : Path} {first? : Option (List String)}
  {rendered text : String}

theorem newline_not_mem_titleAfter {cs title : List Char} (h : titleAfter? cs = some title) :
    '\n' ∉ title := by
  simp only [titleAfter?] at h
  split at h
  · cases h
    intro hmem
    have hline := ((stripWhere_isInfix _ _).trans (strip_isInfix _)).subset hmem
    exact absurd (List.all_eq_true.mp List.all_takeWhile _ hline) (by decide)
  · split at h
    · cases h
      exact List.not_mem_nil
    · cases h

theorem newline_not_mem_titleFrom {fresh : Bool} {cs title : List Char}
    (h : titleFrom? fresh cs = some title) : '\n' ∉ title := by
  induction cs generalizing fresh with
  | nil => cases h
  | cons c cs ih =>
    rw [titleFrom?] at h
    rcases Option.or_eq_some_iff.mp h with h | ⟨-, h⟩
    · split at h
      · obtain ⟨rest, -, htitle⟩ := Option.bind_eq_some_iff.mp h
        exact newline_not_mem_titleAfter htitle
      · cases h
    · exact ih h

/-- Whether a rendered page has a head with a title. -/
def IsTitled (text : String) : Prop :=
  ∃ head body title, frontmatter? (plainNewlines text.toList) = some (head, body) ∧
    title? head = some title

theorem draft?_of_isTitled {disk : Disk} {parts : List String} (htitled : IsTitled text)
    (hfile : disk.fileAt page.place = some text)
    (hfirst : (namesakes disk notebooks page.stem).head? = some parts) :
    ∃ d, draft? disk page notebooks = some d := by
  obtain ⟨head, body, title, hfront, htitle⟩ := htitled
  refine ⟨⟨title, body, parts⟩, ?_⟩
  simp only [draft?, hfile, Option.bind_eq_bind, Option.bind_some, hfront, htitle, hfirst]
  rfl

theorem draft?_eq_some {disk : Disk} {d : PageDraft} (h : draft? disk page notebooks = some d) :
    '\n' ∉ d.title ∧ (namesakes disk notebooks page.stem).head? = some d.parts := by
  simp only [draft?, Option.bind_eq_bind] at h
  obtain ⟨text, -, h⟩ := Option.bind_eq_some_iff.mp h
  obtain ⟨⟨head, body⟩, -, h⟩ := Option.bind_eq_some_iff.mp h
  obtain ⟨title, htitle, h⟩ := Option.bind_eq_some_iff.mp h
  obtain ⟨parts, hparts, h⟩ := Option.bind_eq_some_iff.mp h
  cases h
  exact ⟨newline_not_mem_titleFrom htitle, hparts⟩

theorem search_found {disk : Disk} {found : List (List String)}
    (h : disk.search notebooks.place (page.stem ++ ".ipynb") = .ok found) :
    found = namesakes disk notebooks page.stem := by
  unfold Disk.search at h
  simp only at h
  split at h
  · obtain ⟨_, -, h⟩ := Attempt.bind_eq_ok.mp h
    exact (Except.ok.inj h).symm
  · exact (Except.ok.inj h).symm

/-- What it comes to that a page was published, or left as it is, without a failure. -/
theorem publish_eq_ok {u : Unit} (h : (publish page notebooks).result k = (.ok u, k')) :
    match draft? k.disk page notebooks with
    | none => k'.disk = k.disk
    | some d => ∃ body,
        k'.disk = k.disk.put page.place (.file (String.ofList (d.head ++ body))) := by
  unfold publish at h
  obtain ⟨cs, k₁, hread, hrest⟩ := Job.bind_eq_ok.mp h
  obtain ⟨text, htext, rfl, rfl⟩ := Job.readText_eq_ok hread
  rw [draft?, Disk.read_eq_ok htext]
  simp only [Option.bind_eq_bind, Option.bind_some]
  cases hfront : frontmatter? (plainNewlines text.toList) with
  | none =>
    rw [hfront] at hrest
    cases hrest
    rfl
  | some pair =>
    obtain ⟨head, body⟩ := pair
    simp only [hfront] at hrest
    cases htitle : title? head with
    | none =>
      simp only [htitle] at hrest
      simp only [Option.bind_some, htitle, Option.bind_none]
      cases hrest
      rfl
    | some title =>
      simp only [htitle] at hrest
      simp only [Option.bind_some, htitle]
      split at hrest
      · obtain ⟨_, _, hfail, -⟩ := Job.bind_eq_ok.mp hrest
        exact absurd hfail Job.fail_ne_ok
      · obtain ⟨disk, k₂, hdisk, hrest⟩ := Job.bind_eq_ok.mp hrest
        cases hdisk
        obtain ⟨found, k₂, hsearch, hrest⟩ := Job.bind_eq_ok.mp hrest
        obtain ⟨hfound, rfl⟩ := Job.ofExcept_eq_ok.mp hsearch
        rw [← search_found hfound]
        cases found with
        | nil =>
          cases hrest
          rfl
        | cons parts others =>
          obtain ⟨new, k₃, hbody, hwrite⟩ := Job.bind_eq_ok.mp hrest
          obtain ⟨-, rfl⟩ := Job.ofExcept_eq_ok.mp hbody
          exact ⟨new, Disk.write_eq_ok (Job.writeText_eq_ok hwrite)⟩

end Publishing

end DocSite.Notebook
