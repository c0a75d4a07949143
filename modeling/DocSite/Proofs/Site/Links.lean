import DocSite.Proofs.Mdx.Reference
import DocSite.Proofs.Site.Generation

namespace DocSite

namespace Page

open Text

variable {name : List Char}

/-- The file of an identifier is named by it in small letters: it has none of the characters that
make way for hyphens. -/
theorem slug_of_isIdentifier (h : isIdentifier name = true) : slug name = lower name := by
  have hkept (c : Char) (hc : isSeparator c = true) (hne : c ≠ '-') :
      replaceChar c '-' (lower name) = lower name := by
    rw [replaceChar_eq_self hne, mem_lower (isSeparator_iff.mp hc).1]
    exact not_mem_of_isIdentifier hc h
  rw [slug, groupSlug, hkept ' ' (by decide) (by decide), hkept '/' (by decide) (by decide),
    hkept '.' (by decide) (by decide)]

theorem pageSlug_eq_replaceChar_slug (h : isIdentifier name = true) :
    Mdx.pageSlug name = replaceChar '_' '-' (slug name) := by
  rw [slug_of_isIdentifier h, Mdx.pageSlug]

theorem pageSlug_eq_slug_iff (h : isIdentifier name = true) :
    Mdx.pageSlug name = slug name ↔ '_' ∉ name := by
  rw [pageSlug_eq_replaceChar_slug h, replaceChar_eq_self (by decide), slug_of_isIdentifier h,
    mem_lower (by decide)]

end Page

namespace Site

open Page Outline Mdx

/-- The pages of the modules and classes of a name are files of a stem: where work on an item of
that name succeeds, this file is there afterwards, and no other one has changed. -/
def WrittenAs (name stem : List Char) : Prop :=
  ∀ (s : Setting) (p : PageItem) (k k' : Desk) (made : Option Json) (kept : List String),
    s.makesClasses = false → HasPage p → Api.lastPart p.path = String.ofList name →
    (generate s p).result [] k = ((.ok made, kept), k') →
    (∃ text, k'.disk.fileAt (s.output ++ [String.ofList stem ++ ".mdx"]) = some text) ∧
      ∀ q ≠ s.output ++ [String.ofList stem ++ ".mdx"], k'.disk.fileAt q = k.disk.fileAt q

theorem writtenAs_slug (name : List Char) : WrittenAs name (slug name) := by
  intro s p k k' made kept hs hp hname hrun
  have hplace : placeOf s p = s.output ++ [String.ofList (slug name) ++ ".mdx"] := by
    rw [placeOf, hname, Setting.place, slugText, Text.onChars, String.toList_ofList]
  rw [← hplace]
  constructor
  · obtain ⟨-, -, text, -, hfile⟩ := generate_eq_ok hs hp hrun
    exact ⟨text, hfile⟩
  · intro q hq
    have hframe := fileAt_generate hs (fun _ => hq) k
    rwa [hrun] at hframe

/-- A reference by a dotted path of names becomes a link to the stem of the file of the class or
module that it points to, if and only if this has no underscore in its name: the link has a hyphen
where the file has an underscore, and nothing else is different. -/
theorem link_leads_to_page_iff (text path owner : List Char)
    (hnames : ∀ n ∈ Text.splitChar '.' path, Text.isIdentifier n = true)
    (hpoints : PointsTo (Text.splitChar '.' path) owner) (htext : ']' ∉ unmark text) :
    WrittenAs owner (slug owner) ∧
      ∃ target, escape (referenceTo text path) = linkBeside (unmark text) target ∧
        pagePart target = Text.replaceChar '_' '-' (slug owner) ∧
        (pagePart target = slug owner ↔ '_' ∉ owner) := by
  have howner := hnames owner hpoints.mem
  obtain ⟨target, hescape, hpart⟩ := escape_reference_pointsTo hnames hpoints htext
  refine ⟨writtenAs_slug owner, target, hescape, ?_, ?_⟩
  · rw [hpart, pageSlug_eq_replaceChar_slug howner]
  · rw [hpart, pageSlug_eq_slug_iff howner]

def methodPath : List Char := "pixeltable.Table.add_column".toList

theorem link_leads_to_page_iff_method :
    (∀ n ∈ Text.splitChar '.' methodPath, Text.isIdentifier n = true) ∧
      PointsTo (Text.splitChar '.' methodPath) "Table".toList ∧
      WrittenAs "Table".toList (slug "Table".toList) ∧
      ∃ target, escape (referenceTo ":class:\x60T\x60".toList methodPath) =
          linkBeside "\x60T\x60".toList target ∧
        pagePart target = slug "Table".toList := by
  have hnames : ∀ n ∈ Text.splitChar '.' methodPath, Text.isIdentifier n = true := by
    decide +kernel
  have hparts : Text.splitChar '.' methodPath =
      ["pixeltable".toList] ++ ["Table".toList, "add_column".toList] := by decide +kernel
  have hpoints : PointsTo (Text.splitChar '.' methodPath) "Table".toList := by
    rw [hparts]
    exact .ofMethod (by decide +kernel) (by decide +kernel)
  have htext : unmark ":class:\x60T\x60".toList = "\x60T\x60".toList := by decide +kernel
  obtain ⟨hwritten, target, hescape, -, hiff⟩ := link_leads_to_page_iff
    ":class:\x60T\x60".toList methodPath "Table".toList hnames hpoints (by rw [htext]; decide)
  rw [htext] at hescape
  exact ⟨hnames, hpoints, hwritten, target, hescape, hiff.mpr (by decide)⟩

def underscored : PageItem :=
  ⟨"pixeltable.functions.llama_cpp", ["Functions"], "module", some ["f"], none⟩

/-- The desk after the page of that module is made where nothing was. -/
def underscoredMade : Desk :=
  ((generate (emptyReference.shippedSetting ⟨"/", ["project"]⟩) underscored).result []
    (.on .empty)).2

theorem link_misses_underscored_module :
    escape (referenceTo "t".toList "pixeltable.functions.llama_cpp.f".toList) =
        linkBeside "t".toList "llama-cpp#func-f".toList ∧
      pagePart "llama-cpp#func-f".toList = "llama-cpp".toList ∧
      (underscoredMade.disk.fileAt
        ["project", "target", "docs", "sdk", "latest", "llama_cpp.mdx"]).isSome ∧
      underscoredMade.disk.fileAt
        ["project", "target", "docs", "sdk", "latest", "llama-cpp.mdx"] = none := by
  decide +kernel

end Site

end DocSite
