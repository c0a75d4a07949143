import DocSite.Calendar.Date
import DocSite.Deploy.Run
import DocSite.Shell
import DocSite.Site.Paths

namespace DocSite.Deploy

structure Production where
  shell : Shell
  scratch : Path
  now : Moment

namespace Production

variable (p : Production)

def checkout (branch : String) : Path := p.scratch / ("pixeltable-docs-www-" ++ branch)

def git (words : List String) : Command := ⟨"git" :: words, some (p.checkout "main").toString⟩

def fetch (branch : String) : Job Unit := do
  Job.print ("\n📥 Cloning " ++ branch ++ " branch...")
  let o ← p.shell.clone branch (p.checkout branch)
  if o.code ≠ 0 then
    Job.print ("❌ Failed to clone " ++ branch ++ " branch: " ++ o.err)
    Job.exit (α := Unit) 1
  Job.print ("   ✓ Cloned " ++ branch ++ " branch")

def contents (branch : String) (disk : Disk) : List String :=
  (disk.names (p.checkout branch).place).filter (· ≠ ".git")

def clear (disk : Disk) : Disk :=
  (p.contents "main" disk).foldl
    (fun disk name => disk.remove ((p.checkout "main").place ++ [name])) disk

def copyStage (disk : Disk) : Disk :=
  (p.contents "stage" disk).foldl
    (fun disk name => disk.copy ((p.checkout "stage").place ++ [name])
      ((p.checkout "main").place ++ [name]))
    disk

def publish : Job Unit := do
  let message := "Deploy from stage to production (" ++ p.now.plain ++ ")"
  let _ ← p.shell.require (p.git ["commit", "-m", message])
  Job.print ("   ✓ Created commit: " ++ message)
  Job.print "\n📤 Pushing to main branch..."
  let _ ← p.shell.require (p.git ["push", "origin", "main"])
  Job.print "   ✓ Pushed to main"
  Job.print "\n📜 Recent commits (for rollback reference):"
  let log ← p.shell.call (p.git ["log", "--oneline", "-5"])
  (Text.lines (Text.strip log.out.toList)).forM fun l => Job.print ("   " ++ String.ofList l)

def rule : String := String.ofList (List.replicate 60 '=')

def run : Job Unit := do
  Job.print "\n🚀 Deploying documentation from stage to production..."
  Job.print rule
  p.fetch "main"
  p.fetch "stage"
  Job.print "\n🗑️  Clearing main branch content..."
  Job.setDisk (p.clear (← Job.disk))
  Job.print "   ✓ Cleared main branch"
  Job.print "\n📋 Copying stage content to main..."
  let disk ← Job.disk
  Job.setDisk (p.copyStage disk)
  Job.print ("   ✓ Copied " ++ toString (p.contents "stage" disk).length ++ " items")
  Job.print "\n💾 Creating commit checkpoint..."
  let _ ← p.shell.require (p.git ["add", "-A"])
  let changes ← p.shell.call (p.git ["diff", "--staged", "--quiet"])
  if changes.code = 0 then
    Job.print "   ℹ️  No changes detected (stage and main are identical)"
  else p.publish
  Job.print ("\n" ++ rule)
  Job.print "✅ Production deployment complete!"
  Job.print "   View at: https://docs.pixeltable.com/"
  Job.print "\n💡 To rollback, use: git revert HEAD"

end Production

def targets : List String := ["dev", "stage", "prod"]

def run (package? : Option Site.Package) (shell : Shell) (now : Moment) (cwd scratch : Path)
    (args : List String) : Job Unit := do
  match args with
  | [target] =>
    if !targets.contains target then
      Job.print ("Error: Invalid target " ++ Literal.quotedText target ++
        ". Must be one of: dev, stage, prod.")
      Job.exit (α := Unit) 1
    Job.print ("Deploying documentation for target: " ++ target)
    let repository ← Site.ownRepository package? cwd
    if target = "prod" then Production.run ⟨shell, scratch, now⟩
    else
      match package?.bind (·.version?) with
      | none => Job.fail (.noAttribute "module" "__version__")
      | some version => Deployment.run ⟨shell, repository, scratch, target⟩ version
  | _ =>
    Job.print "Usage: deploy.py <dev|stage|prod>"
    Job.exit 1

end DocSite.Deploy
