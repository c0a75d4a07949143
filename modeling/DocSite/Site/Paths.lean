import DocSite.Job

namespace DocSite.Site

def sourceDir (repo : Path) : Path := repo / "docs" / "mintlify"

def targetDir (repo : Path) : Path := repo / "target" / "docs"

structure Package where
  file? : Option Path
  version? : Option String
  deriving DecidableEq, Repr

def ownRepository (package? : Option Package) (cwd : Path) : Job Path := do
  match package? with
  | none =>
    Job.print "Error: `pixeltable` package not found."
    Job.exit 1
  | some package =>
    match package.file? with
    | none => Job.fail (.noAttribute "module" "__file__")
    | some file =>
      let repository : Path := ⟨"/", file.parent.parent.place⟩
      if repository = cwd then return repository
      else
        Job.print "Error: Please run this script from the pixeltable repository root."
        Job.exit 1

end DocSite.Site
