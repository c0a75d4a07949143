import DocSite.Coverage.Validate
import DocSite.Deploy.Production
import DocSite.Llm.Suite
import DocSite.Outside
import DocSite.Site.Build
import DocSite.Site.Fetching
import DocSite.Site.Reference

namespace DocSite

structure Surroundings where
  program : String
  aids : Api.Aids
  world : Api.World
  package? : Option Site.Package
  shell : Shell
  network : Network
  renderer : Notebook.Renderer
  /-- The pages that are newer than their notebooks. -/
  isFresh : List String → Bool
  now : Moment
  read : Notebook.Reader := .plain
  cwd : Path
  home : Path
  scratch : Path
  /-- Whether programs that stand alone find the reader of outlines. -/
  isReaderFound : Bool

inductive Program
  | build
  | deploy
  | changelog
  | contributors
  | notebooks
  | coverage
  | reference
  | suite
  | standalone
  | listing
  | patterns
  deriving DecidableEq, Repr

namespace Program

def byName : List (String × Program) :=
  [("build", .build), ("deploy", .deploy), ("changelog", .changelog),
    ("contributors", .contributors), ("convert-notebooks", .notebooks),
    ("validate-api", .coverage), ("mintlifier", .reference), ("llmdocs", .suite),
    ("quick-reference", .standalone), ("public-api", .listing), ("dev-patterns", .patterns)]

def named? (name : String) : Option Program := byName.lookup name

def run (s : Surroundings) (args : List String) : Program → Job Unit
  | .build => Site.runBuild s.package? s.shell s.network s.renderer s.cwd
  | .deploy => Deploy.run s.package? s.shell s.now s.cwd s.scratch args
  | .changelog => (Site.changelogFetching s.network s.cwd).run s.program args
  | .contributors => (Site.contributorsFetching s.network s.cwd).run s.program args
  | .notebooks => Notebook.runConversion s.cwd s.renderer s.isFresh s.program args
  | .coverage => Coverage.run s.world s.cwd s.program args
  | .reference =>
    Site.Reference.run
      { aids := s.aids
        world := s.world
        program := s.home
        configFile := .holding Site.shippedConfig
        cwd := s.cwd
        version := "latest"
        quiet := false }
      s.program args
  | .suite =>
    let project := Llm.projectRoot (s.home / "suite")
    Llm.runSuite ⟨s.aids, s.world, "main"⟩ s.now project (s.home / "opml_bak") s.read
  | .standalone =>
    Llm.runStandalone ⟨s.aids, s.world, "main"⟩ s.now s.home s.isReaderFound s.read
  | .listing => Llm.runListing s.world s.now s.home s.isReaderFound
  | .patterns => Llm.runPatterns s.now s.cwd s.read

end Program

end DocSite
