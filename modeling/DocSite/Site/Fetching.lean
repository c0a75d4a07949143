import DocSite.Changelog.Publish
import DocSite.Contributors.Page
import DocSite.Manual

namespace DocSite.Site

structure Fetching where
  about : String
  /-- What the help says of the directory that the page is made in. -/
  outputNote : String
  failure : String
  make : Path → String → Job Unit
  makeNowhere : String → Job Unit

namespace Fetching

def manual (f : Fetching) : Manual :=
  ⟨f.about,
    [helpOption, ⟨["--output"], .value, true, f.outputNote⟩,
      ⟨["--repo"], .value, false, "GitHub repository (default: pixeltable/pixeltable)"⟩]⟩

def run (f : Fetching) (program : String) (args : List String) : Job Unit := do
  let given ← f.manual.read program args
  let repository := ((Options.value? given "--repo").map (·.shown)).getD "pixeltable/pixeltable"
  let work := match Options.value? given "--output" with
    | some (.text output) => f.make (.ofString output) repository
    | _ => f.makeNowhere repository
  Job.rescue work fun fault => do
    Job.complain ("\n❌ " ++ f.failure ++ ": " ++ fault.message)
    Job.exit 1

end Fetching

def changelogFetching (net : Network) (cwd : Path) : Fetching :=
  { about := "Fetch GitHub releases and convert to Mintlify MDX format"
    outputNote := "Output directory for MDX files"
    failure := "Failed to generate changelog"
    make := Changelog.publish net cwd
    makeNowhere := Changelog.publishNowhere net }

def contributorsFetching (net : Network) (cwd : Path) : Fetching :=
  { about := "Fetch GitHub contributors and generate contributors page"
    outputNote := "Output directory for MDX file"
    failure := "Failed to generate contributors page"
    make := Contributors.publish net cwd
    makeNowhere := Contributors.publishNowhere net }

end DocSite.Site
