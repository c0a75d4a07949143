import DocSite.Job
import DocSite.Json.Access
import DocSite.Network
import DocSite.Sorting

namespace DocSite.Contributors

open Text

def nextAddress? (header : String) : Except Fault (Option String) :=
  match (splitChar ',' header.toList).find? (contains "rel=\"next\"".toList) with
  | none => .ok none
  | some link =>
    match cutAt? ['<'] link, cutAt? ['>'] link with
    | some (before, _), some (upTo, _) =>
      .ok (some (String.ofList (upTo.drop (before.length + 1))))
    | _, _ => .error (.badValue "substring not found")

def loadPage (net : Network) (address : String) : Except Fault (List Json × Option String) := do
  let (page, header) ← net.load address
  return (← page.each, ← nextAddress? header)

def followPages (net : Network) : Nat → String → Option (Except Fault (List Json))
  | 0, _ => none
  | fuel + 1, address =>
    if address.isEmpty then some (.ok [])
    else
      match loadPage net address with
      | .error fault => some (.error fault)
      | .ok (found, none) => some (.ok found)
      | .ok (found, some next) => (followPages net fuel next).map fun r => r.map (found ++ ·)

/-- The contributors on all pages from an address on. The result is none if the pages run in a
circle, which they do as soon as there are more of them than addresses. -/
def allPages (net : Network) (address : String) : Option (Except Fault (List Json)) :=
  followPages net (net.length + 1) address

def firstAddress (repository : String) : String :=
  "https://api.github.com/repos/" ++ repository ++ "/contributors?per_page=100"

def fetch (net : Network) (repository : String) : Except Halt (List Json) :=
  match allPages net (firstAddress repository) with
  | none => .error .endless
  | some (.ok found) => .ok found
  | some (.error fault) =>
    .error (.failed (.givenUp
      ("Failed to fetch contributors: Failed to fetch contributors from GitHub: " ++
        fault.message)))

def ranked (found : List Json) : Except Fault (List Json) := do
  let keyed ← found.mapM fun v => do return (← v.get "contributions" (.int 0), v)
  return (← Ranking.sortDown (fun x y => x.1.precedes y.1) keyed).map Prod.snd

def isBot (v : Json) : Except Fault Bool := do
  return (← v.get "type" .null).same (.str "Bot")

def card (v : Json) : Except Fault String := do
  let login := (← v.get "login" (.str "Unknown")).shown
  let avatar := (← v.get "avatar_url" (.str "")).shown
  let address := (← v.get "html_url" (.str "")).shown
  let contributions ← v.get "contributions" (.int 0)
  let plural := if contributions.same (.int 1) then "" else "s"
  return "\n<div style=\"display: inline-block; margin: 10px; text-align: center; width: 150px;\">\n" ++
    "  <a href=\"" ++ address ++ "\" target=\"_blank\" style=\"text-decoration: none;\">\n" ++
    "    <img src=\"" ++ avatar ++ "\" alt=\"" ++ login ++
    "\" style=\"border-radius: 50%; width: 100px; height: 100px; border: 2px solid #e5e7eb;\" />\n" ++
    "    <div style=\"margin-top: 8px; font-weight: 600; color: #1f2937;\">@" ++ login ++ "</div>\n" ++
    "    <div style=\"font-size: 0.875rem; color: #6b7280;\">" ++ contributions.shown ++
    " contribution" ++ plural ++ "</div>\n  </a>\n</div>\n"

def pageHead : String :=
  "---\ntitle: \"Our Contributors\"\n" ++
  "description: \"Meet the amazing people who make Pixeltable possible\"\n---\n\n" ++
  "Pixeltable is built by a vibrant community of developers, researchers, and enthusiasts. We're grateful for every contribution, from code to documentation to bug reports.\n\n" ++
  "## Core Team & Community Contributors\n\n" ++
  "The following amazing people have contributed to Pixeltable:\n\n"

def pageTail : String :=
  "\n\n---\n\n## Join Our Community\n\n" ++
  "Want to see your name here? We'd love your contributions! Check out our [GitHub repository](https://github.com/pixeltable/pixeltable) to get started.\n\n" ++
  "- 🐛 Report bugs\n- 💡 Suggest features\n- 📝 Improve documentation\n- 🔧 Submit pull requests\n\n" ++
  "Every contribution, no matter how small, makes a difference. Thank you for being part of the Pixeltable community! 🙏\n"

def gather (net : Network) (output repository : String) : Job (List Json) := do
  Job.print "👥 Fetching contributors from GitHub..."
  Job.print ("   Repository: " ++ repository)
  Job.print ("   Output: " ++ output)
  let found ← Job.ofHalting (fetch net repository)
  if found.isEmpty then Job.print "⚠️  No contributors found"
  else Job.print ("🎉 Found " ++ toString found.length ++ " contributor(s)")
  return found

def publish (net : Network) (cwd output : Path) (repository : String) : Job Unit := do
  let found ← gather net output.toString repository
  if found.isEmpty then return
  let place := (cwd.join output).place
  Job.change (·.makeDir place)
  let sorted ← Job.ofExcept (ranked found)
  let people ← sorted.filterM fun v => return !(← Job.ofExcept (isBot v))
  let cards ← people.mapM fun v => Job.ofExcept (card v)
  Job.writeText (place ++ ["contributors.mdx"]) (pageHead ++ String.join cards ++ pageTail).toList
  Job.print "   ✅ contributors.mdx"
  Job.print "\n💪 Contributors page generated successfully!"
  Job.print ("   Output: " ++ (output / "contributors.mdx").toString)
  Job.print ("   Total contributors: " ++ toString people.length)

def publishNowhere (net : Network) (repository : String) : Job Unit := do
  let found ← gather net "[]" repository
  if found.isEmpty then return
  Job.fail (.noAttribute "list" "mkdir")

end DocSite.Contributors
