import DocSite.Coverage.Scan
import DocSite.Manual
import DocSite.Outline.Entry
import DocSite.Xml.Reader

namespace DocSite.Coverage

def count (items : Items) : Nat := (items.flatMap Prod.snd).length

def found (items : Items) : String :=
  "   Found " ++ toString items.length ++ " modules with " ++ toString (count items) ++ " items"

def rule : String := String.ofList (List.replicate 70 '=')

/-- A list of a report with its heading, in order. Only the first entries are shown if there are
more than the given number. -/
def shownEntries (limit : Nat) (heading : String) (entries : List String) : List String :=
  if entries.isEmpty then []
  else
    let sorted := entries.mergeSort fun a b => a ≤ b
    let more :=
      if limit < entries.length then
        ["   ... and " ++ toString (entries.length - limit) ++ " more"]
      else []
    heading :: (sorted.take limit).map ("   - " ++ ·) ++ more ++ [""]

def Report.lines (r : Report) : List String :=
  [rule, "VALIDATION REPORT", rule, ""] ++
  shownEntries r.empty.length "⚠️  EMPTY MODULES IN OPML (have content in code):" r.empty ++
  shownEntries 20 ("❌ MISSING FROM OPML (" ++ toString r.missing.length ++ " items):") r.missing ++
  shownEntries 20 ("⚠️  IN OPML BUT NOT IN CODE (" ++ toString r.notInCode.length ++ " items):")
    r.notInCode ++
  (if r.missing.isEmpty && r.notInCode.isEmpty && r.empty.isEmpty then
    ["✅ All API items are properly documented!", ""]
  else []) ++
  [rule, "SUMMARY", rule, "  Empty modules: " ++ toString r.empty.length,
    "  Missing from OPML: " ++ toString r.missing.length,
    "  In OPML but not in code: " ++ toString r.notInCode.length, ""]

/-- The code that a check ends with: what the outline has too much does no harm. -/
def Report.exitCode (r : Report) : Int := if r.missing.isEmpty && r.empty.isEmpty then 0 else 1

def nearestOutline? (d : Disk) (cwd : Path) : Option Path :=
  [cwd, cwd.parent, cwd.parent.parent].map (· / "docs" / "public_api.opml") |>.find?
    fun p => d.exists? p.place

def manual : Manual :=
  ⟨"Validate OPML documentation against actual Python API",
    [helpOption,
      ⟨["--opml"], .value, false, "Path to OPML file (default: auto-detect from pixeltable repo)"⟩,
      ⟨["--package"], .value, false, "Package to scan (default: pixeltable)"⟩]⟩

def validate (w : Api.World) (cwd outline : Path) (package : Options.Value) : Job Unit := do
  Job.print "📊 Validating API documentation"
  Job.print ("   OPML: " ++ outline.toString)
  Job.print ("   Package: " ++ package.shown)
  Job.print ""
  Job.print "🔍 Scanning Python API..."
  let items ← match package with
    | .text name => scan w name
    | _ => scanNothing
  Job.print (found items)
  Job.print "📖 Parsing OPML..."
  let text ← Job.ofExcept ((← Job.disk).read (cwd.join outline).place)
  let listed := Outline.coverage (← Job.ofExcept (Xml.parse text))
  Job.print (found listed)
  Job.print ""
  Job.print "⚖️  Comparing..."
  let report := compare items listed
  report.lines.forM Job.print
  Job.exit report.exitCode

def run (w : Api.World) (cwd : Path) (program : String) (args : List String) : Job Unit := do
  let given ← manual.read program args
  let package := (Options.value? given "--package").getD (.text "pixeltable")
  let named := match Options.value? given "--opml" with
    | some (.text path) => some (Path.ofString path)
    | _ => none
  match named.or (nearestOutline? (← Job.disk) cwd) with
  | some outline => validate w cwd outline package
  | none =>
    Job.complain "❌ Could not find public_api.opml"
    Job.complain "   Please specify --opml path or run from pixeltable repository"
    Job.exit 1

end DocSite.Coverage
