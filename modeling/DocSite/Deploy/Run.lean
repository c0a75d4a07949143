import DocSite.Deploy.Versions
import DocSite.Shell
import DocSite.Site.Store

namespace DocSite.Deploy

structure Deployment where
  shell : Shell
  repository : Path
  scratch : Path
  branch : String

namespace Deployment

variable (d : Deployment)

def isDraft : Bool := d.branch = Label.draftBranch

def built : Path := d.repository / "target" / "docs"

def checkout : Path := d.scratch / "pixeltable-docs-www"

def git (words : List String) : Command := ⟨"git" :: words, some d.checkout.toString⟩

/-- What is left in the checkout: the files of version control, and the reference of the versions
published so far unless this is a draft. -/
def keeps (name : String) : Bool := name.startsWith ".git" || (name = "sdk" && !d.isDraft)

def clear (disk : Disk) : Disk :=
  ((disk.names d.checkout.place).filter fun name => !d.keeps name).foldl
    (fun disk name => disk.remove (d.checkout.place ++ [name])) disk

def copyPages : List String → Job Unit
  | [] => return
  | name :: names => do
    let disk ← Job.disk
    let target := d.checkout.place ++ [name]
    if disk.exists? target then Job.fail .unmet
    else
      Job.setDisk (disk.copy (d.built.place ++ [name]) target)
      copyPages names

def dropReference (target : Path) : Job Unit := do
  match (← Job.disk).find? target.place with
  | some (.file _) => Job.fail (.notTree target.toString)
  | some .dir => Job.setDisk ((← Job.disk).remove target.place)
  | none => pure ()

def layReference (target : Path) : Job Unit := do
  let source := (d.built / "sdk" / "latest").place
  match (← Job.disk).find? source with
  | some .dir =>
    Job.ofExcept (Disk.checkPlace target.place)
    Job.setDisk ((← Job.disk).copy source target.place)
  | some (.file _) => Job.fail (.notDirectory (Disk.shownPlace source))
  | none => Job.fail (.noFile (Disk.shownPlace source))

def copyReference (name : String) : Job Unit := do
  let target := d.checkout / "sdk" / name
  Job.print ("   Copying latest SDK docs to: " ++ target.toString)
  Job.ofExcept (Disk.checkNames target.place)
  dropReference target
  d.layReference target

def fetch : Job (Json × Json) := do
  let o ← d.shell.clone d.branch d.checkout
  if o.code ≠ 0 then
    Job.fail (α := Unit)
      (.commandFailed (Shell.cloneCommand d.branch d.checkout).words (.code o.code))
  let existing ← Site.Store.readJson (d.checkout / "docs.json").place
  let new ← Site.Store.readJson (d.built / "docs.json").place
  return (existing, new)

def layFiles (label : String) : Job Unit := do
  Job.setDisk (d.clear (← Job.disk))
  Job.print "   Copying documentation files ..."
  d.copyPages (((← Job.disk).names d.built.place).filter (· ≠ "sdk"))
  Job.change (·.makeDir (d.checkout / "sdk").place)
  d.copyReference "latest"
  d.copyReference label

def configuration (label : String) (existing new : Json) : Job Json := do
  let docs ← Job.ofExcept (addLabelled label new)
  if d.isDraft then return docs
  else
    Job.print "   Merging SDK dropdowns in docs.json ..."
    return (← Job.ofExcept (Navigation.mergeVersions existing docs)).2

def assemble (label : String) : Job Unit := do
  let (existing, new) ← d.fetch
  d.layFiles label
  let docs ← d.configuration label existing new
  Job.change (·.write (d.checkout / "docs.json").place docs.fileText)

def publish (message : String) : Job Unit := do
  let _ ← d.shell.require (d.git ["add", "-A"])
  let changes ← d.shell.call (d.git ["diff", "--staged", "--quiet"])
  if changes.code = 0 then Job.print "\nThere are no changes to deploy."
  else
    Job.print ("\nCommitting changes to " ++ Literal.quotedText d.branch ++ " branch ...")
    let _ ← d.shell.require (d.git ["commit", "-m", message])
    Job.print "\nPushing to origin ..."
    let _ ← d.shell.require (d.git ["push", "origin", d.branch])
    Job.print "   Deployed successfully"

def builtFrom : Job String := do
  let o ← d.shell.require ⟨["git", "rev-parse", "HEAD"], some d.repository.toString⟩
  return String.ofList ((Text.strip o.out.toList).take 8)

def announce (version : String) : Job (Label × String) := do
  if !(← Job.disk).exists? d.built.place then
    Job.print ("Error: Docs target directory " ++ d.built.toString ++
      " does not exist. Please build the docs first.")
    Job.exit (α := Unit) 1
  let label ← Job.ofExcept (Label.of d.branch version)
  let commit ← d.builtFrom
  Job.print ("\nAssembling docs " ++ label.text ++ " from " ++ commit ++ " into " ++
    Literal.quotedText d.branch ++ " branch ...")
  if label.isChanged then
    Job.print ("   NOTE: There have been changes since the official " ++ label.text ++ " release.")
  Job.print ("   Cloning into " ++ d.checkout.toString ++ " ...")
  return (label, commit)

/-- Publishes what was assembled. A site with errors goes to no branch but that for drafts. -/
def conclude (label commit : String) : Job Unit := do
  let errors ← Site.check d.shell d.checkout
  if !errors.isEmpty && !d.isDraft then
    Job.print ("\nERROR: Documentation has parsing errors. Fix before deploying to " ++
      Literal.quotedText d.branch ++ ", or deploy to 'dev' instead.")
    Job.exit (α := Unit) 1
  d.publish ("Deploy documentation " ++ label ++ " from " ++ commit)
  Job.print ("\nView at: https://pixeltable-" ++ d.branch ++ ".mintlify.app/")

def run (version : String) : Job Unit := do
  let (label, commit) ← d.announce version
  d.assemble label.text
  d.conclude label.text commit

end Deployment

end DocSite.Deploy
