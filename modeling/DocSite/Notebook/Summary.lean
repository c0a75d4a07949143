import DocSite.Job
import DocSite.Notebook.Concept

namespace DocSite.Notebook

def shortened (s : String) : String :=
  let cs := s.toList
  String.ofList (cs.take 150) ++ (if 150 < cs.length then "..." else "")

def Digest.summary (d : Digest) : String :=
  "**" ++ d.title ++ "**\n" ++
  (if d.description.isEmpty then "" else "  " ++ shortened d.description ++ "\n") ++
  (if d.concepts.isEmpty then ""
    else "  *Demonstrates: " ++ ", ".intercalate d.concepts ++ "*\n") ++
  (if d.patterns.isEmpty then ""
    else "  *" ++ toString d.patterns.length ++ " code patterns*\n") ++ "\n"

def Collection.summary (c : Collection) : String :=
  "# Pixeltable Developer Patterns\n\n" ++
  "> A curated collection of " ++ toString c.notebooks.length ++
  " working examples demonstrating Pixeltable capabilities\n\n" ++
  "## Key Concepts Covered\n\n" ++
  String.join ((conceptCounts c).map fun (concept, count) =>
    "- **" ++ concept ++ "** (" ++ toString count ++ " examples)\n") ++
  "\n## Pattern Categories\n\n" ++
  String.join ((byCategory c).map fun (category, ds) =>
    "### " ++ categoryTitle category ++ "\n\n" ++ String.join (ds.map Digest.summary) ++ "\n")

def Collection.saveSummary (c : Collection) (target : Path) : Job Unit := do
  Job.change (·.write target.place c.summary)
  Job.print ("Created summary at " ++ target.toString)

end DocSite.Notebook
