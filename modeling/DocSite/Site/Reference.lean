import DocSite.Manual
import DocSite.Navigation.Build
import DocSite.Navigation.Check
import DocSite.Outline.Reader
import DocSite.Page.ModulePage
import DocSite.Site.Store

namespace DocSite.Site

open Page

inductive ConfigFile
  | missing
  | bare
  | holding (config : Json)

def shippedConfig : Json :=
  .obj [("opml_path", .str "/docs/public_api.opml"),
    ("docs_json_path", .str "/target/docs/docs.json"),
    ("sdk_output_dir", .str "/target/docs/sdk/latest"),
    ("github_repo", .str "pixeltable/pixeltable"),
    ("github_package_path", .str "pixeltable"),
    ("sdk_tab", .str "Pixeltable SDK"),
    ("show_errors", .bool true),
    ("internal_blacklist", .ofTexts
      ["Env", "TempStore", "MediaStore", "Catalog", "StorageBackend", "TransactionalDirectory",
        "Config", "Client", "Server", "StorageManager", "CacheManager", "FileCache", "S3Client",
        "TableVersionHandle", "SchemaObject", "Path", "Dir", "TableVersion", "ColumnVersion",
        "FunctionVersion"])]

structure Reference where
  aids : Api.Aids
  world : Api.World
  program : Path
  configFile : ConfigFile
  cwd : Path
  version : String
  /-- Whether missing documentation is left unmentioned, whatever the settings say. -/
  quiet : Bool

/-- A path of the settings: one that begins with a slash is seen from the top of the project, any
other from the directory of the program. -/
def resolve (project program : Path) (path : String) : Path :=
  if path.startsWith "/" then project / String.ofList (path.toList.dropWhile (· = '/'))
  else program / path

def nearestProject? (d : Disk) : List (List String) → Option (List String)
  | [] => none
  | place :: above =>
    if !place.isEmpty && d.exists? (place ++ [".git"]) then some place else nearestProject? d above

def noProject : String :=
  "Could not find project root (.git directory). Run this command from within the pixeltable repository."

def findProject (cwd : Path) : Job Path := do
  match nearestProject? (← Job.disk) (Disk.upTo cwd.place).reverse with
  | some place => return ⟨"/", place⟩
  | none => Job.fail (.givenUp noProject)

def rule : String := String.ofList (List.replicate 60 '=')

def Reference.config (r : Reference) : Job Json := do
  match r.configFile with
  | .missing =>
    Job.print ("❌ Config file not found: " ++ (r.program / "config.py").toString)
    Job.print "   Please create config.py with a 'config' dictionary containing:"
    Job.print "   - docs_json_path: path to docs.json"
    Job.print "   - sdk_output_dir: where to output SDK docs"
    Job.print "   - sdk_tab: name of SDK tab"
    Job.exit 1
  | .bare =>
    Job.print "❌ Config file must contain a 'config' dictionary"
    Job.exit 1
  | .holding config =>
    Job.print "📋 Loaded config from config.py"
    return config

structure Plan where
  outline : Path
  output : Path
  store : Store
  config : Json

def Reference.plan (r : Reference) (project : Path) (config : Json) : Except Fault Plan := do
  let pathOf (v : Json) : Except Fault Path := do
    return resolve project r.program (← v.text "startswith")
  let outline ← pathOf (← config.get "opml_path" (.str "/docs/tools/public_api.opml"))
  let docs ← pathOf (← config.item "docs_json_path")
  let output ← pathOf (← config.item "sdk_output_dir")
  let tab ← config.item "sdk_tab"
  return ⟨outline, output, ⟨docs, tab.shown⟩, config⟩

def Reference.setting (r : Reference) (p : Plan) : Except Fault Setting := do
  let showErrors ← p.config.get "show_errors" (.bool true)
  let repository ← p.config.get "github_repo" (.str "pixeltable/pixeltable")
  let hidden ← p.config.get "internal_blacklist" (.arr [])
  let names ← if hidden.isPresent then hidden.each else pure []
  return { aids := r.aids
           world := r.world
           version := r.version
           showErrors := !r.quiet && showErrors.isPresent
           repository := repository.shown
           output := p.output.place
           hidden := names.map Json.shown
           makesClasses := false }

def generate (s : Setting) (p : Outline.PageItem) : PageJob (Option Json) := do
  match p.kind with
  | "module" => return some (← modulePage s p.path p.children? (p.kinds?.getD []))
  | "class" => return some (.str (← classPage s p.path (p.children?.getD [])))
  | "type" => return none
  | kind =>
    Job.print ("⚠️ Unknown item type: " ++ kind)
    return none

def generateAll (s : Setting) (generated : OrderedMap Json) :
    List Outline.PageItem → PageJob (Nat × OrderedMap Json)
  | [] => return (0, generated)
  | p :: ps => do
    match ← generate s p with
    | none => generateAll s generated ps
    | some result =>
      let (count, generated) ← generateAll s (generated.set p.path result) ps
      return (count + 1, generated)

/-- Brings the configuration of the site up to date with what was generated. Gives whether that
succeeded; a failure is told and goes no further. -/
def publishNavigation (store : Store) (nav : Json) : StoreJob Bool := do
  store.load
  let warnings ← Job.ofExcept (Navigation.check nav)
  if !warnings.isEmpty then
    Job.print "⚠️  Validation warnings:"
    warnings.forM fun w => Keeping.ofJob (Job.print ("   - " ++ w))
  tryCatch
    (do
      store.update nav
      store.save
      return true)
    fun
      | .failed fault => do
        Job.print ("❌ Error updating navigation: " ++ fault.message)
        return false
      | halt => throw halt

def Reference.make (r : Reference) (project : Path) : Job Unit := do
  Job.print "🚀 Starting Mintlify SDK documentation generation..."
  Job.print rule
  let plan ← Job.ofExcept (r.plan project (← r.config))
  if !(← Job.disk).exists? plan.outline.place then
    Job.print ("❌ OPML file not found: " ++ plan.outline.toString)
    Job.exit (α := Unit) 1
  Job.print ("\n📖 Loading OPML structure from: " ++ plan.outline.toString)
  Job.print ("📁 Output directory: " ++ plan.output.toString)
  Job.print ("📌 Documentation version: " ++ r.version)
  let setting ← Job.ofExcept (r.setting plan)
  Job.change (·.makeDir setting.output)
  Job.print ("📝 Docs.json path: " ++ plan.store.path.toString)
  Job.print ("\n" ++ rule)
  Job.print "📊 Processing OPML structure..."
  match ← Outline.load plan.outline .withColumnFunctions with
  | none =>
    Job.print "❌ No SDK tab found in OPML"
    Job.exit 1
  | some tab =>
    Job.print ("✅ Found tab: " ++ tab.name)
    Job.print ("   Groups: " ++ toString tab.groups.length)
    Job.print ("   Total pages to generate: " ++ toString tab.pages.length)
    Job.print ("\n" ++ rule)
    Job.print "📄 Generating documentation pages..."
    let (count, generated) ← (generateAll setting [] tab.pages).startingWith []
    Job.print ("\n✅ Generated: " ++ toString count ++ " pages")
    Job.print ("\n" ++ rule)
    Job.print "📝 Updating docs.json navigation..."
    let nav := Navigation.build r.version generated tab
    if ← (publishNavigation plan.store nav).startingWith .null then
      Job.print ("\n" ++ rule)
      Job.print "✨ Documentation generation complete!"
      Job.print ("   📄 Generated " ++ toString count ++ " documentation pages")
      Job.print ("   📁 Output directory: " ++ plan.output.toString)
      Job.print ("   📝 Updated navigation in: " ++ plan.store.path.toString)

def referenceManual : Manual :=
  ⟨"", [⟨["--no-errors"], .flag, false, ""⟩,
    ⟨["--version"], .value, false, "Version to generate docs for (e.g., v0.4)"⟩]⟩

def Reference.withOptions (r : Reference) (given : Options.Given) : Reference :=
  { r with
    quiet := r.quiet || Options.isGiven given "--no-errors"
    version :=
      match Options.value? given "--version" with
      | some (.text v) => if v.isEmpty then r.version else v
      | _ => r.version }

def Reference.run (r : Reference) (program : String) (args : List String) : Job Unit := do
  let given ← referenceManual.read program args
  let project ← findProject r.cwd
  tryCatch ((r.withOptions given).make project) fun
    | .interrupted => do
      Job.print "\n\n⚠️  Generation interrupted by user"
      Job.exit 1
    | .failed fault => do
      Job.print ("\n❌ Fatal error: " ++ fault.message)
      Job.exit 1
    | halt => throw halt

end DocSite.Site
