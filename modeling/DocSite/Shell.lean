import DocSite.Job
import DocSite.Text.Case

namespace DocSite

structure Outcome where
  code : Int
  out : String
  err : String
  deriving DecidableEq, Repr

/-- What was caught of a stream when time was up: text, or bytes that are none, with the reason. -/
inductive Caught
  | text (s : String)
  | bytes (reason : String)
  deriving DecidableEq, Repr

def Caught.read : Caught → Except Fault String
  | .text s => .ok s
  | .bytes reason => .error (.undecodable reason)

/-- How a look at the finished site ended: by itself, because its time was up, or before it was
begun. -/
inductive Preview
  | ended (out err : String)
  | timedOut (out err : Caught)
  | unable (reason : String)
  deriving DecidableEq, Repr

structure Shell where
  outcome : Command → Outcome
  branch : String → List (List String × String)
  preview : Preview

namespace Shell

def call (sh : Shell) (c : Command) : Job Outcome := do
  Job.record c
  return sh.outcome c

def require (sh : Shell) (c : Command) : Job Outcome := do
  let o ← sh.call c
  if o.code = 0 then return o else Job.fail (.commandFailed c.words (.code o.code))

def siteRepository : String := "https://github.com/pixeltable/pixeltable-docs-www.git"

def cloneCommand (branch : String) (target : Path) : Command :=
  ⟨["git", "clone", "-b", branch, siteRepository, target.toString], none⟩

/-- Fetches a branch of the published site into a directory, which stays away if that fails. -/
def clone (sh : Shell) (branch : String) (target : Path) : Job Outcome := do
  let o ← sh.call (cloneCommand branch target)
  if o.code = 0 then
    let d := (← Job.disk).fill target.place
    Job.setDisk ((sh.branch branch).foldl
      (fun d (parts, text) => d.addFile (target.place ++ parts) text) d)
  return o

end Shell

end DocSite

namespace DocSite.Site

def previewCommand (site : Path) : Command :=
  ⟨["npx", "mintlify", "dev", "--port", "3001", "--no-open"], some site.toString⟩

def parsingErrors (report : List Char) : List String :=
  ((Text.lines report).filter fun l =>
    Text.contains "parsing error".toList (Text.lower l)).map fun l => String.ofList (Text.strip l)

def tellErrors : List String → Job (List String)
  | [] => do
    Job.print "   No errors."
    return []
  | errors => do
    Job.print ("   Found " ++ toString errors.length ++ " error(s):")
    errors.forM fun e => Job.print ("   " ++ e)
    return errors

/-- Looks for pages of a finished site that cannot be read. The look is expected to go on until its
time is up. That it could not be begun counts as an error of its own. -/
def check (sh : Shell) (site : Path) : Job (List String) := do
  Job.print "\nValidating documentation ..."
  Job.record (previewCommand site)
  match sh.preview with
  | .unable reason => return ["⚠️  Could not run validation: " ++ reason]
  | .ended out err => tellErrors (parsingErrors (err ++ out).toList)
  | .timedOut out err =>
    let err ← Job.ofExcept err.read
    let out ← Job.ofExcept out.read
    tellErrors (parsingErrors (err ++ out).toList)

end DocSite.Site
