import DocSite.Changelog.Release
import DocSite.Job
import DocSite.Network

namespace DocSite.Changelog

def releasesAddress (repository : String) : String :=
  "https://api.github.com/repos/" ++ repository ++ "/releases?per_page=50"

def fetchReleases (net : Network) (repository : String) : Except Fault Json :=
  match net.load (releasesAddress repository) with
  | .ok (releases, _) => .ok releases
  | .error fault =>
    .error (.givenUp ("Failed to fetch releases: Failed to fetch releases from GitHub: " ++
      fault.message))

def changelogHead : String :=
  "---\ntitle: \"Changelog\"\ndescription: \"Release history and updates for Pixeltable\"\n---\n\n" ++
  "## Contributors\n\n" ++
  "Pixeltable is built by a vibrant community of contributors. We're grateful for everyone who has helped make Pixeltable better!\n\n" ++
  "**Want to contribute?** Check out our [Contributing Guide](https://github.com/pixeltable/pixeltable/blob/main/CONTRIBUTING.md) to get started.\n\n" ++
  "**Top Contributors:** View our amazing contributors on [GitHub](https://github.com/pixeltable/pixeltable/graphs/contributors).\n\n" ++
  "---\n\n## Release History\n\n" ++
  "View the complete release history for Pixeltable below. Each release includes detailed information about new features, bug fixes, and improvements.\n\n" ++
  "For the latest release information, visit our [GitHub Releases page](https://github.com/pixeltable/pixeltable/releases).\n\n" ++
  "---\n\n"

def changelogPage (releases : Json) : Except Fault String := do
  let sections ← (← releases.each).mapM fun v => do
    return (← Release.read "unknown" v).section
  return changelogHead ++ String.join sections

def gatherReleases (net : Network) (output repository : String) : Job (Option Json) := do
  Job.print "   Fetching releases from GitHub ..."
  Job.print ("      Repository: " ++ repository)
  Job.print ("      Output: " ++ output)
  let releases ← Job.ofExcept (fetchReleases net repository)
  if releases.isPresent then
    let count ← Job.ofExcept releases.size
    Job.print ("   Found " ++ toString count ++ " release(s)")
    return some releases
  else
    Job.print "☠️  No releases found"
    return none

def publish (net : Network) (cwd output : Path) (repository : String) : Job Unit := do
  let some releases ← gatherReleases net output.toString repository | return
  let place := (cwd.join output).place
  Job.ofExcept (Disk.checkNames place)
  match (← Job.disk).find? place with
  | some node =>
    Job.print ("   Cleaning output directory: " ++ output.toString)
    if node = .dir then Job.setDisk ((← Job.disk).remove place)
    else Job.fail (α := Unit) (.notTree output.toString)
  | none => pure ()
  Job.change (·.makeDir place)
  Job.print "   Creating consolidated changelog ..."
  let page ← Job.ofExcept (changelogPage releases)
  Job.writeText (place ++ ["changelog.mdx"]) page.toList
  Job.print "   Changelog generated successfully."

/-- Without a directory the work ends where the page would be made. -/
def publishNowhere (net : Network) (repository : String) : Job Unit := do
  let some _ ← gatherReleases net "[]" repository | return
  Job.fail (.noAttribute "list" "exists")

end DocSite.Changelog
