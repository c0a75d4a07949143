import DocSite.Llm.Map
import DocSite.Proofs.Fields
import DocSite.Proofs.Llm.Listing
import DocSite.Proofs.Path
import DocSite.Proofs.Text.Case

/-!
What the map of an interface refers to: the identifiers of its entries, and the places in the
repository that it names.
-/

namespace DocSite.Llm

open Api

/-- A step that adds something to a map. -/
inductive Addition
  | module (path : String) (children : List String)
  | cls (path : String) (children : List String)
  | func (path : String)
  | type (path : String)

def classOf? : Entity → Option (ClassInfo × List (Layer Entity))
  | .cls info layers => some (info, layers)
  | _ => none

namespace Addition

def path : Addition → String
  | .module path _ | .cls path _ | .func path | .type path => path

def run (m : ApiMap) : Addition → Except Fault (Json × ApiMap)
  | .module path children => m.addModule path children
  | .cls path children => m.addClass path children
  | .func path => m.addFunction path
  | .type path => .ok (m.addType path)

/-- The map after a step; one that fails changes nothing. -/
def apply (m : ApiMap) (a : Addition) : ApiMap :=
  match a.run m with
  | .ok (_, m') => m'
  | .error _ => m

/-- The methods that a step adds, with their names: those of a class that is there. -/
def methods (w : World) : Addition → List (String × Entity)
  | .cls path children =>
    let found? := (ApiMap.lookUp w path "Class" "a class" Entity.isClass).toOption.bind (·.toOption)
    (found?.bind classOf?).elim [] fun c => methodsOf c.1 c.2 children
  | _ => []

end Addition

/-- The identifier of an entry. -/
def idOf? (entry : Json) : Option String := entry.textAt? "@id"

/-- The identifier of what an entry says that it is a part of. -/
def ownerOf? (entry : Json) : Option String := (entry.field "memberOf").textAt? "@id"

/-- The entries of methods inside an entry. -/
def methodEntries (entry : Json) : List Json :=
  (entry.field "hasPart").items.filter fun e => e.textAt? "@type" = some "Method"

section Entries

variable {s : Scene} {path name reason kind : String} {e : Entity}

theorem textAt?_method : (s.method path name e).textAt? "@type" = some "Method" := rfl

theorem idOf?_method : idOf? (s.method path name e) = some ("pxt:" ++ (path ++ "." ++ name)) := rfl

theorem ownerOf?_method : ownerOf? (s.method path name e) = some ("pxt:" ++ path) := rfl

theorem idOf?_classEntry {info : ClassInfo} {layers : List (Layer Entity)} {children : List String} :
    idOf? (s.classEntry path info layers children) = some ("pxt:" ++ path) := rfl

theorem methodEntries_classEntry {info : ClassInfo} {layers : List (Layer Entity)}
    {children : List String} : methodEntries (s.classEntry path info layers children) =
      (methodsOf info layers children).map fun p => s.method (lastPart path) p.1 p.2 := by
  refine List.filter_eq_self.mpr fun entry hentry => decide_eq_true_eq.mpr ?_
  obtain ⟨p, -, rfl⟩ := List.mem_map.mp hentry
  exact textAt?_method

theorem methodEntries_errorEntry : methodEntries (errorEntry path reason kind) = [] := rfl

theorem methodEntries_typeEntry : methodEntries (typeEntry path) = [] := rfl

theorem methodEntries_function : methodEntries (s.function path name e) = [] := by
  have hparts : (s.function path name e).field? "hasPart" = none := by
    cases hget : (s.function path name e).field? "hasPart" with
    | none => rfl
    | some v =>
      have hmem := OrderedMap.mem_of_get? hget
      simp only [Scene.function, Json.entries, List.mem_append] at hmem
      rcases hmem with (((h | h) | h) | h) | h
      · simp at h
      · split at h <;> simp at h
      · split at h
        · unfold callFields at h
          split at h <;> simp at h
        · simp at h
      · split at h
        · split at h <;> simp at h
        · simp at h
      · split at h <;> simp at h
  rw [methodEntries, Json.field, hparts]
  rfl

theorem textAt?_item {entry : Json} (h : s.item? path name e = some entry) :
    entry.textAt? "@type" = some "Class" ∨ entry.textAt? "@type" = some "Function" ∨
      entry.textAt? "@type" = some "PropertyValue" := by
  unfold Scene.item? at h
  split at h
  · cases h
    exact .inl rfl
  · split at h
    · cases h
      exact .inr (.inl rfl)
    · split at h
      · cases h
      · cases h
        exact .inr (.inr rfl)

theorem methodEntries_module {m : Module} {children : List String} :
    methodEntries (s.module path m children) = [] := by
  refine List.filter_eq_nil_iff.mpr fun entry hentry => ?_
  obtain ⟨p, -, hitem⟩ := List.mem_filterMap.mp hentry
  rcases textAt?_item hitem with h | h | h <;> simp [h]

end Entries

/-- What a step adds: an entry with the methods of the step, which go by the last part of its path
alone. -/
structure Describes (s : Scene) (a : Addition) (entry : Json) : Prop where
  methods : methodEntries entry =
    (a.methods s.world).map fun p => s.method (lastPart a.path) p.1 p.2
  id : a.methods s.world ≠ [] → idOf? entry = some ("pxt:" ++ a.path)

theorem describes_of_nil {s : Scene} {a : Addition} {entry : Json} (ha : a.methods s.world = [])
    (h : methodEntries entry = []) : Describes s a entry :=
  ⟨by rw [h, ha]; rfl, fun hne => absurd ha hne⟩

theorem addModule_cases (m : ApiMap) (path : String) (children : List String) :
    (∃ fault, m.addModule path children = .error fault) ∨
      ∃ entry, m.addModule path children = .ok (m.push entry) ∧ methodEntries entry = [] := by
  unfold ApiMap.addModule
  split
  · exact .inr ⟨_, rfl, methodEntries_module⟩
  · exact .inr ⟨_, rfl, methodEntries_errorEntry⟩
  · exact .inl ⟨_, rfl⟩

/-- A step changes nothing, or it adds its entry at the end. -/
theorem Addition.apply_cases (m : ApiMap) (a : Addition) :
    (a.apply m = m ∧ a.methods m.scene.world = []) ∨
      ∃ entry, a.apply m = (m.push entry).2 ∧ Describes m.scene a entry := by
  cases a with
  | module path children =>
    simp only [apply, run]
    rcases addModule_cases m path children with ⟨fault, h⟩ | ⟨entry, h, hentry⟩
    · exact .inl ⟨by rw [h], rfl⟩
    · exact .inr ⟨entry, by rw [h], describes_of_nil rfl hentry⟩
  | type path => exact .inr ⟨_, rfl, describes_of_nil rfl methodEntries_typeEntry⟩
  | func path =>
    simp only [apply, run, ApiMap.addFunction]
    cases hlook : ApiMap.lookUp m.scene.world path "Function" "callable" Entity.isCallable with
    | error fault => exact .inl ⟨rfl, rfl⟩
    | ok found =>
      cases found with
      | error reason => exact .inr ⟨_, rfl, describes_of_nil rfl methodEntries_errorEntry⟩
      | ok e => exact .inr ⟨_, rfl, describes_of_nil rfl methodEntries_function⟩
  | cls path children =>
    simp only [apply, run, ApiMap.addClass]
    cases hlook : ApiMap.lookUp m.scene.world path "Class" "a class" Entity.isClass with
    | error fault => exact .inl ⟨rfl, by rw [methods, hlook]; rfl⟩
    | ok found =>
      cases found with
      | error reason =>
        exact .inr ⟨_, rfl, describes_of_nil (by rw [methods, hlook]; rfl) methodEntries_errorEntry⟩
      | ok e =>
        cases e with
        | cls info layers =>
          have hmethods : (Addition.cls path children).methods m.scene.world =
              methodsOf info layers children := by rw [methods, hlook]; rfl
          refine .inr ⟨_, rfl, ?_, fun _ => idOf?_classEntry⟩
          rw [hmethods]
          exact methodEntries_classEntry
        | _ =>
          -- looking up lets only classes through, which its result does not say
          exact .inr ⟨_, rfl, describes_of_nil (by rw [methods, hlook]; rfl)
            methodEntries_errorEntry⟩

/-- The map after some steps. -/
def ApiMap.after (m : ApiMap) (steps : List Addition) : ApiMap := steps.foldl Addition.apply m

section Run

variable {m : ApiMap} {steps : List Addition} {a : Addition} {entry : Json}

theorem subset_parts_after (steps : List Addition) (m : ApiMap) :
    m.parts ⊆ (m.after steps).parts := by
  induction steps generalizing m with
  | nil => exact List.Subset.refl _
  | cons b steps ih =>
    refine List.Subset.trans ?_ (ih (b.apply m))
    rcases b.apply_cases m with ⟨hsame, -⟩ | ⟨entry, hpush, -⟩
    · rw [hsame]
      exact List.Subset.refl _
    · rw [hpush]
      exact List.subset_append_left _ _

theorem scene_apply (a : Addition) (m : ApiMap) : (a.apply m).scene = m.scene := by
  rcases a.apply_cases m with ⟨hsame, -⟩ | ⟨entry, hpush, -⟩
  · rw [hsame]
  · rw [hpush]
    rfl

/-- All that is added comes from the steps. -/
theorem describes_of_mem_after (h : entry ∈ (m.after steps).parts) :
    entry ∈ m.parts ∨ ∃ a ∈ steps, Describes m.scene a entry := by
  induction steps generalizing m with
  | nil => exact .inl h
  | cons b steps ih =>
    rcases ih h with hold | ⟨a, ha, hdescribes⟩
    · rcases b.apply_cases m with ⟨hsame, -⟩ | ⟨entry', hpush, hdescribes⟩
      · rw [hsame] at hold
        exact .inl hold
      · rw [hpush] at hold
        rcases List.mem_append.mp hold with hold | hnew
        · exact .inl hold
        · cases List.mem_singleton.mp hnew
          exact .inr ⟨b, List.mem_cons_self, hdescribes⟩
    · rw [scene_apply] at hdescribes
      exact .inr ⟨a, List.mem_cons_of_mem b ha, hdescribes⟩

/-- A step with methods adds them. -/
theorem exists_mem_after (ha : a ∈ steps) (hmethods : a.methods m.scene.world ≠ []) :
    ∃ entry ∈ (m.after steps).parts, Describes m.scene a entry := by
  induction steps generalizing m with
  | nil => cases ha
  | cons b steps ih =>
    rcases List.mem_cons.mp ha with rfl | ha
    · rcases a.apply_cases m with ⟨-, hnone⟩ | ⟨entry, hpush, hdescribes⟩
      · exact absurd hnone hmethods
      · refine ⟨entry, subset_parts_after steps _ ?_, hdescribes⟩
        rw [hpush]
        exact List.mem_append_right _ List.mem_cons_self
    · have hlater := ih (m := b.apply m) ha
      rw [scene_apply] at hlater
      exact hlater hmethods

end Run

section Names

variable {w : World} {a : Addition} {path : String}

theorem not_mem_lastPart (path : String) : '.' ∉ (lastPart path).toList := by
  rw [lastPart, Text.afterLast, String.toList_ofList,
    List.getLast?_eq_some_getLast (Text.splitChar_ne_nil '.' path.toList), Option.getD_some]
  exact Text.not_mem_of_mem_splitChar (List.getLast_mem _)

/-- A class is looked for in a module, so that its path has more than one part. -/
theorem path_ne_lastPart (h : a.methods w ≠ []) : a.path ≠ lastPart a.path := by
  intro hpath
  have hdot : '.' ∉ a.path.toList := hpath ▸ not_mem_lastPart a.path
  have hparent : parentPath a.path = "" := by
    rw [parentPath, Text.splitChar_of_not_mem hdot]
    rfl
  cases a with
  | cls path children =>
    have hload : w.load (parentPath path) = .error (.badValue "Empty module name") := by
      rw [show parentPath path = "" from hparent]
      rfl
    have hlook : ApiMap.lookUp w path "Class" "a class" Entity.isClass =
        .error (.badValue "Empty module name") := by
      unfold ApiMap.lookUp
      rw [hload]
    exact h (by rw [Addition.methods, hlook]; rfl)
  | _ => exact h rfl

theorem methodName_inj {c d n k : String} (hc : '.' ∉ c.toList) (hd : '.' ∉ d.toList) :
    c ++ "." ++ n = d ++ "." ++ k ↔ c = d ∧ n = k := by
  refine ⟨fun h => ?_, fun ⟨hcd, hnk⟩ => by rw [hcd, hnk]⟩
  have hchars : c.toList ++ '.' :: n.toList = d.toList ++ '.' :: k.toList := by
    simpa using congrArg String.toList h
  have hcut := (Text.cutAt?_append hc n.toList).symm.trans
    ((congrArg (Text.cutAt? ['.']) hchars).trans (Text.cutAt?_append hd k.toList))
  simpa [String.toList_inj] using hcut

end Names

/-- Every method says that it is a part of the entry it stands in. -/
def OwnersResolve (entries : List Json) : Prop :=
  ∀ c ∈ entries, ∀ e ∈ methodEntries c, ownerOf? e = idOf? c

/-- Methods of different classes have different identifiers. -/
def MethodsApart (entries : List Json) : Prop :=
  ∀ c ∈ entries, ∀ d ∈ entries, idOf? c ≠ idOf? d →
    ∀ e ∈ methodEntries c, ∀ f ∈ methodEntries d, idOf? e ≠ idOf? f

section References

variable {s : Scene} {begun : Moment} {steps : List Addition} {a : Addition} {c e : Json}

theorem describes_of_mem (h : c ∈ (ApiMap.after ⟨s, begun, []⟩ steps).parts) :
    ∃ a ∈ steps, Describes s a c :=
  (describes_of_mem_after h).resolve_left List.not_mem_nil

theorem Describes.mem_methodEntries (h : Describes s a c) : e ∈ methodEntries c ↔
    ∃ p ∈ a.methods s.world, e = s.method (lastPart a.path) p.1 p.2 := by
  rw [h.methods, List.mem_map]
  simp only [eq_comm]

theorem ownersResolve_iff (s : Scene) (begun : Moment) (steps : List Addition) :
    OwnersResolve (ApiMap.after ⟨s, begun, []⟩ steps).parts ↔
      ∀ a ∈ steps, a.methods s.world = [] := by
  constructor
  · intro h a ha
    refine Classical.byContradiction fun hmethods => ?_
    obtain ⟨c, hc, hdescribes⟩ := exists_mem_after (m := ⟨s, begun, []⟩) ha hmethods
    obtain ⟨p, hp⟩ := List.exists_mem_of_ne_nil _ hmethods
    have howner := h c hc _ (hdescribes.mem_methodEntries.mpr ⟨p, hp, rfl⟩)
    rw [ownerOf?_method, hdescribes.id hmethods, Option.some.injEq, String.append_right_inj] at howner
    exact path_ne_lastPart hmethods howner.symm
  · intro h c hc e he
    obtain ⟨a, ha, hdescribes⟩ := describes_of_mem hc
    obtain ⟨p, hp, -⟩ := hdescribes.mem_methodEntries.mp he
    rw [h a ha] at hp
    cases hp

theorem methodsApart_iff (s : Scene) (begun : Moment) (steps : List Addition) :
    MethodsApart (ApiMap.after ⟨s, begun, []⟩ steps).parts ↔
      ∀ a ∈ steps, ∀ b ∈ steps, a.path ≠ b.path → lastPart a.path = lastPart b.path →
        ∀ p ∈ a.methods s.world, ∀ q ∈ b.methods s.world, p.1 ≠ q.1 := by
  constructor
  · intro h a ha b hb hpath hlast p hp q hq hname
    obtain ⟨c, hc, hca⟩ :=
      exists_mem_after (m := ⟨s, begun, []⟩) ha (List.ne_nil_of_mem hp)
    obtain ⟨d, hd, hdb⟩ :=
      exists_mem_after (m := ⟨s, begun, []⟩) hb (List.ne_nil_of_mem hq)
    refine h c hc d hd ?_ _ (hca.mem_methodEntries.mpr ⟨p, hp, rfl⟩) _
      (hdb.mem_methodEntries.mpr ⟨q, hq, rfl⟩) ?_
    · rw [hca.id (List.ne_nil_of_mem hp), hdb.id (List.ne_nil_of_mem hq), Ne, Option.some.injEq,
        String.append_right_inj]
      exact hpath
    · rw [idOf?_method, idOf?_method, hlast, hname]
  · intro h c hc d hd hid e he f hf hsame
    obtain ⟨a, ha, hca⟩ := describes_of_mem hc
    obtain ⟨b, hb, hdb⟩ := describes_of_mem hd
    obtain ⟨p, hp, rfl⟩ := hca.mem_methodEntries.mp he
    obtain ⟨q, hq, rfl⟩ := hdb.mem_methodEntries.mp hf
    rw [hca.id (List.ne_nil_of_mem hp), hdb.id (List.ne_nil_of_mem hq), Ne, Option.some.injEq,
      String.append_right_inj] at hid
    rw [idOf?_method, idOf?_method, Option.some.injEq, String.append_right_inj,
      methodName_inj (not_mem_lastPart _) (not_mem_lastPart _)] at hsame
    exact h a ha b hb hid hsame.1 p hp q hq hsame.2

end References

/-- In the map that any steps make, methods refer to the entries they stand in only if there are no
methods at all, and methods of different classes are told apart exactly if no two classes of one name
and different paths have methods of one name. -/
theorem method_references_iff (s : Scene) (begun : Moment) (steps : List Addition) :
    (OwnersResolve (ApiMap.after ⟨s, begun, []⟩ steps).parts ↔
      ∀ a ∈ steps, a.methods s.world = []) ∧
    (MethodsApart (ApiMap.after ⟨s, begun, []⟩ steps).parts ↔
      ∀ a ∈ steps, ∀ b ∈ steps, a.path ≠ b.path → lastPart a.path = lastPart b.path →
        ∀ p ∈ a.methods s.world, ∀ q ∈ b.methods s.world, p.1 ≠ q.1) :=
  ⟨ownersResolve_iff s begun steps, methodsApart_iff s begun steps⟩

/-- A module with a class of one method. -/
def clientModule (name : String) : Module :=
  ⟨name, none, [("Client", .cls ⟨"Client", none, .absent, [], .plain, [], []⟩
    [⟨none, [("close", .func ⟨"close", none, ⟨[], none⟩, none, .plain, false, .absent⟩)]⟩])],
    .unknown, none, none, []⟩

def clientScene : Scene :=
  ⟨⟨fun _ => .empty, .absent⟩, [clientModule "a", clientModule "b"], "main"⟩

def clientSteps : List Addition := [.cls "a.Client" [], .cls "b.Client" []]

/-- Two classes of one name with a method of one name: the methods refer to no entry and have one
identifier. -/
theorem method_references_clash :
    let entries := (ApiMap.after ⟨clientScene, ⟨2000, 1, 2, 3, 4, 5⟩, []⟩ clientSteps).parts
    ¬OwnersResolve entries ∧ ¬MethodsApart entries := by
  have hnames : (clientSteps.map fun a => (a.methods clientScene.world).map Prod.fst) =
      [["close"], ["close"]] := by decide +kernel
  have hpath : "a.Client" ≠ "b.Client" := by decide
  have hlast : lastPart "a.Client" = lastPart "b.Client" := by decide +kernel
  obtain ⟨hfirst, hsecond⟩ := List.cons.inj hnames
  obtain ⟨p, hp, hpname⟩ := List.mem_map.mp (hfirst ▸ List.mem_cons_self)
  obtain ⟨q, hq, hqname⟩ := List.mem_map.mp ((List.cons.inj hsecond).1 ▸ List.mem_cons_self)
  refine ⟨fun h => ?_, fun h => ?_⟩
  · have hnone := (ownersResolve_iff _ _ _).mp h _ List.mem_cons_self
    rw [hnone] at hp
    cases hp
  · exact (methodsApart_iff _ _ _).mp h (.cls "a.Client" []) List.mem_cons_self
      (.cls "b.Client" []) (List.mem_cons_of_mem _ List.mem_cons_self) hpath hlast
      p hp q hq (hpname.trans hqname.symm)

/-- How a module is filed: in a file of its name, or in the directory of its name. -/
inductive Filing
  | single
  | package
  deriving DecidableEq, Repr

/-- A name that can stand between the points of a path of modules. -/
def IsPart (s : String) : Prop := s ≠ "" ∧ '.' ∉ s.toList ∧ '/' ∉ s.toList

/-- The names on the way to a module of the package. -/
def way (names : List String) : List String := "pixeltable" :: names

/-- The file of a module in the repository. -/
def Filing.path (names : List String) : Filing → String
  | .single => "/".intercalate (way names) ++ ".py"
  | .package => "/".intercalate (way names) ++ "/__init__.py"

/-- How a module seems to be filed by the name of its file. -/
def filingOf (file : String) : Filing := if file.endsWith "__init__.py" then .package else .single

/-- The path of a file from the package on. -/
def packagePath? (file : String) : Option String :=
  (fromPackage? (Path.ofString file).parts).map ("/".intercalate ·)

/-- An object of a module of the package, written in a file of that module below a directory. -/
structure Placed (w : World) (e : Entity) (names : List String) (filing : Filing)
    (directory : String) (line : Int) : Prop where
  isPart : ∀ n ∈ names, IsPart n
  home : e.home? = some (".".intercalate (way names))
  found : (w.find? (".".intercalate (way names))).isSome = true
  file : (Page.sourceOf e).file = .at (directory ++ "/" ++ filing.path names)
  line : (Page.sourceOf e).line? = some line

/-- Where a map shows a line of a file of the repository. -/
def repositoryAddress (version path : String) (line : Int) : String :=
  "https://github.com/pixeltable/pixeltable/blob/" ++ version ++ "/" ++ path ++ "#L" ++ toString line

/-- The link of a map and the link of a page lead to one file of the repository and one line of
it. -/
def LinksAgree (version repository : String) (w : World) (e : Entity) : Prop :=
  ∃ path line, (location? e).map (Location.address version) =
      some (repositoryAddress version path line) ∧
    Page.address? repository w e = .ok (some (Page.address repository path line))

section Filing

variable {names : List String} {filing : Filing} {directory : String}

theorem isPart_way (h : ∀ n ∈ names, IsPart n) : ∀ n ∈ way names, IsPart n :=
  List.forall_mem_cons.mpr ⟨⟨by decide, by simp, by simp⟩, h⟩

theorem modulePath_way (h : ∀ n ∈ names, IsPart n) (file : String) :
    Page.modulePath (".".intercalate (way names)) (.at file) = (filingOf file).path names := by
  have hreplace : Text.onChars (Text.replaceChar '.' '/') (".".intercalate (way names)) =
      "/".intercalate (way names) := by
    rw [← String.toList_inj, Text.onChars, String.toList_ofList, String.toList_intercalate,
      String.toList_intercalate]
    have hparts := isPart_way h
    generalize way names = ns at hparts
    induction ns with
    | nil => rfl
    | cons n ns ih =>
      obtain ⟨hn, hns⟩ := List.forall_mem_cons.mp hparts
      have hself : Text.replaceChar '.' '/' n.toList = n.toList :=
        (Text.replaceChar_eq_self (by decide)).mpr hn.2.1
      cases ns with
      | nil => simpa using hself
      | cons k ks =>
        have hrest := ih hns
        simp only [List.map_cons, List.intercalate_cons_cons, Text.replaceChar_append] at hrest ⊢
        rw [hself, hrest]
        rfl
  rw [Page.modulePath, hreplace, filingOf]
  split <;> rfl

theorem length_path (names : List String) (filing : Filing) : (filing.path names).length =
    ("/".intercalate (way names)).length + (if filing = .package then 12 else 3) := by
  cases filing with
  | single => exact String.length_append _ ".py"
  | package => exact String.length_append _ "/__init__.py"

theorem path_inj {f g : Filing} : f.path names = g.path names ↔ f = g := by
  refine ⟨fun h => ?_, fun h => by rw [h]⟩
  have hlength := congrArg String.length h
  rw [length_path, length_path] at hlength
  cases f <;> cases g <;> simp at hlength ⊢

theorem fromPackage?_of_mem {ps : List String} (h : "pixeltable" ∈ ps) (qs : List String) :
    ∃ more, fromPackage? (ps ++ qs) = some ("pixeltable" :: (more ++ qs)) := by
  induction ps with
  | nil => cases h
  | cons p ps ih =>
    rw [List.cons_append, fromPackage?]
    split
    · rename_i hp
      exact ⟨ps, by rw [hp]⟩
    · rename_i hp
      exact ih ((List.mem_cons.mp h).resolve_left (Ne.symm hp))

theorem fromPackage?_of_not_mem {ps : List String} (h : "pixeltable" ∉ ps) (qs : List String) :
    fromPackage? (ps ++ qs) = fromPackage? qs := by
  induction ps with
  | nil => rfl
  | cons p ps ih =>
    obtain ⟨hp, hps⟩ : "pixeltable" ≠ p ∧ "pixeltable" ∉ ps := by simpa using h
    rw [List.cons_append, fromPackage?, if_neg (Ne.symm hp), ih hps]

theorem splitChar_way (h : ∀ n ∈ names, IsPart n) :
    Text.splitChar '/' ("/".intercalate (way names)).toList = (way names).map String.toList := by
  rw [String.toList_intercalate]
  refine Text.splitChar_intercalate_of_not_mem (by simp [way]) fun t ht => ?_
  obtain ⟨n, hn, rfl⟩ := List.mem_map.mp ht
  exact (isPart_way h n hn).2.2

theorem intercalate_parts_path (h : ∀ n ∈ names, IsPart n) (filing : Filing) :
    "/".intercalate (Path.ofString (filing.path names)).parts = filing.path names := by
  have hway : ∀ p ∈ (way names).map String.toList, p ≠ [] ∧ p ≠ ['.'] := by
    intro p hp
    obtain ⟨n, hn, rfl⟩ := List.mem_map.mp hp
    obtain ⟨hne, hdot, -⟩ := isPart_way h n hn
    exact ⟨by simpa using hne, fun heq => hdot (heq ▸ List.mem_cons_self)⟩
  refine Path.intercalate_parts fun p hp => ?_
  cases filing with
  | single =>
    have hend : '/' ∉ ".py".toList := by simp
    obtain ⟨pieces, last, hpieces, hpath⟩ :=
      Text.splitChar_append_end hend ("/".intercalate (way names)).toList
    rw [splitChar_way h] at hpieces
    rw [Filing.path, String.toList_append, hpath] at hp
    rcases List.mem_append.mp hp with hp | hp
    · exact hway p (hpieces ▸ List.mem_append_left _ hp)
    · rw [List.mem_singleton.mp hp]
      cases last <;> simp
  | package =>
    have htail : ("/__init__.py" : String).toList = '/' :: "__init__.py".toList := rfl
    rw [Filing.path, String.toList_append, htail, Text.splitChar_append, splitChar_way h] at hp
    rcases List.mem_append.mp hp with hp | hp
    · exact hway p hp
    · rw [List.mem_singleton.mp hp]
      exact ⟨by decide, by decide⟩

theorem packagePath?_path (h : ∀ n ∈ names, IsPart n) (hroot : filing = .single → names ≠ []) :
    packagePath? (filing.path names) = some (filing.path names) := by
  have hstart : ∃ rest, (filing.path names).toList = "pixeltable".toList ++ '/' :: rest := by
    cases names with
    | nil =>
      cases filing with
      | single => exact absurd rfl (hroot rfl)
      | package => exact ⟨_, rfl⟩
    | cons n names =>
      cases filing <;>
        exact ⟨_, by simp only [Filing.path, way, String.intercalate_cons_cons, String.toList_append,
          List.append_assoc]; rfl⟩
  have hfrom : fromPackage? (Path.ofString (filing.path names)).parts =
      some (Path.ofString (filing.path names)).parts := by
    obtain ⟨rest, hrest⟩ := hstart
    rw [Path.ofString, hrest, Path.parts_append]
    exact if_pos rfl
  rw [packagePath?, hfrom, Option.map_some, intercalate_parts_path h]

theorem packagePath?_of_not_mem (h : "pixeltable" ∉ (Path.ofString directory).parts)
    (file : String) : packagePath? (directory ++ "/" ++ file) = packagePath? file := by
  rw [packagePath?, Path.parts_slash, fromPackage?_of_not_mem h, packagePath?]

theorem endsWith_iff {s t : String} : s.endsWith t = true ↔ t.toList <:+ s.toList := by
  rw [String.endsWith_eq_endsWith_toSlice, String.Slice.endsWith_string_iff]
  simp

theorem filingOf_package : filingOf (directory ++ "/" ++ Filing.package.path names) = .package := by
  refine if_pos (endsWith_iff.mpr ?_)
  rw [Filing.path, String.toList_append, String.toList_append (t := "/__init__.py")]
  exact ((List.suffix_cons '/' _).trans (List.suffix_append _ _)).trans (List.suffix_append _ _)

/-- What ends a text without a slash ends what comes after the last slash. -/
theorem isSuffix_cons_iff {tail before last : List Char} (h : '/' ∉ tail) :
    tail <:+ before ++ '/' :: last ↔ tail <:+ last := by
  refine ⟨fun hend => ?_, fun hend =>
    (hend.trans (List.suffix_cons _ _)).trans (List.suffix_append _ _)⟩
  rcases List.suffix_or_suffix_of_suffix hend (List.suffix_append before ('/' :: last)) with hs | hs
  · rcases List.suffix_cons_iff.mp hs with rfl | hs
    · exact absurd List.mem_cons_self h
    · exact hs
  · exact absurd (hs.subset List.mem_cons_self) h

theorem filingOf_single {front : List String} {last : String} :
    filingOf (directory ++ "/" ++ Filing.single.path (front ++ [last])) = .single ↔
      ¬"__init__".toList <:+ last.toList := by
  have htext : ∃ before, (directory ++ "/" ++ Filing.single.path (front ++ [last])).toList =
      (before ++ '/' :: last.toList) ++ ".py".toList := by
    have hway : (way (front ++ [last])).map String.toList =
        (way front).map String.toList ++ [last.toList] := by simp [way]
    rw [Filing.path, String.toList_append, String.toList_append (t := ".py"),
      String.toList_intercalate, hway, Text.intercalate_concat_of_ne_nil _ _ (by simp [way]),
      ← List.append_assoc, ← List.append_assoc, ← List.append_assoc]
    exact ⟨_, by rw [List.append_assoc _ "/".toList]; rfl⟩
  obtain ⟨before, hbefore⟩ := htext
  have hends : (directory ++ "/" ++ Filing.single.path (front ++ [last])).endsWith "__init__.py" =
      true ↔ "__init__".toList <:+ last.toList := by
    rw [endsWith_iff, hbefore]
    change "__init__".toList ++ ".py".toList <:+ _ ++ ".py".toList ↔ _
    rw [List.suffix_append_self_iff, isSuffix_cons_iff (by simp)]
  rw [← hends, filingOf]
  split <;> simp_all

theorem length_intercalate_le (xs : List String) {ys : List String} (h : ys ≠ []) :
    ("/".intercalate ys).length ≤ ("/".intercalate (xs ++ ys)).length := by
  induction xs with
  | nil => exact Nat.le_refl _
  | cons x xs ih =>
    obtain ⟨z, zs, hz⟩ := List.exists_cons_of_ne_nil (List.append_ne_nil_of_right_ne_nil xs h)
    rw [List.cons_append, hz, String.intercalate_cons_cons, String.length_append, ← hz]
    omega

/-- With the package in the directory too, more is left than any file of the module has. -/
theorem packagePath?_ne_of_mem (h : ∀ n ∈ names, IsPart n)
    (hdirectory : "pixeltable" ∈ (Path.ofString directory).parts) (f g : Filing) :
    packagePath? (directory ++ "/" ++ f.path names) ≠ some (g.path names) := by
  intro heq
  have hpath := intercalate_parts_path h f
  have hlength := length_path names f
  have hshown := length_path names g
  have hne : (Path.ofString (f.path names)).parts ≠ [] := by
    intro hnil
    rw [hnil] at hpath
    rw [← hpath] at hlength
    split at hlength <;> simp at hlength
  obtain ⟨more, hmore⟩ := fromPackage?_of_mem hdirectory (Path.ofString (f.path names)).parts
  obtain ⟨z, zs, hz⟩ := List.exists_cons_of_ne_nil (List.append_ne_nil_of_right_ne_nil more hne)
  rw [packagePath?, Path.parts_slash, hmore, Option.map_some, Option.some.injEq] at heq
  have htwice := congrArg String.length heq
  rw [hz, String.intercalate_cons_cons, String.length_append, String.length_append, ← hz] at htwice
  have hle := length_intercalate_le more hne
  rw [hpath] at hle
  have hten : "pixeltable".length = 10 ∧ "/".length = 1 := by decide
  split at hlength <;> split at hshown <;> omega

/-- The path of a file from the package on is the one that the name of the module gives, unless the
package is looked for too far up, or the file is not filed as its name says. -/
theorem packagePath?_eq_iff (h : ∀ n ∈ names, IsPart n) (directory : String) (filing : Filing) :
    packagePath? (directory ++ "/" ++ filing.path names) =
      some ((filingOf (directory ++ "/" ++ filing.path names)).path names) ↔
    "pixeltable" ∉ (Path.ofString directory).parts ∧
      (filing = .single → ∃ last ∈ names.getLast?, ¬"__init__".toList <:+ last.toList) := by
  by_cases hdirectory : "pixeltable" ∈ (Path.ofString directory).parts
  · exact iff_of_false (packagePath?_ne_of_mem h hdirectory filing _) fun hand => hand.1 hdirectory
  · rw [packagePath?_of_not_mem hdirectory, and_iff_right hdirectory]
    cases filing with
    | package => simp [packagePath?_path h, filingOf_package]
    | single =>
      rcases List.eq_nil_or_concat names with rfl | ⟨front, last, rfl⟩
      · have hnone : packagePath? (Filing.single.path []) = none := rfl
        simp [hnone]
      · rw [List.concat_eq_append] at h ⊢
        rw [packagePath?_path h (by simp), Option.some.injEq, path_inj, eq_comm, filingOf_single]
        simp

end Filing

theorem head?_append {s t : String} {c : Char} (h : s.toList.head? = some c) :
    (s ++ t).toList.head? = some c := by
  rw [String.toList_append, List.head?_append, h]
  rfl

/-- A file that is not below the package has no place in the repository. -/
theorem address_ne_repositoryAddress {l : Location} (h : l.relative? = none)
    (version path : String) (line : Int) :
    l.address version ≠ repositoryAddress version path line := by
  intro hsame
  have hlocal : (l.address version).toList.head? = some 'f' := by
    rw [Location.address, h]
    exact head?_append (head?_append (head?_append rfl))
  have hremote : (repositoryAddress version path line).toList.head? = some 'h' :=
    head?_append (head?_append (head?_append (head?_append (head?_append rfl))))
  rw [hsame, hremote] at hlocal
  exact absurd hlocal (by decide)

theorem append_cancel {start p q mark l k : String}
    (h : start ++ p ++ mark ++ l = start ++ q ++ mark ++ k) : p ++ mark ++ l = q ++ mark ++ k := by
  simpa [String.append_assoc] using h

section Placed

variable {w : World} {e : Entity} {names : List String} {filing : Filing} {directory : String}
  {line : Int}

theorem Placed.location?_eq (h : Placed w e names filing directory line) : location? e =
    some ⟨Path.ofString (directory ++ "/" ++ filing.path names),
      packagePath? (directory ++ "/" ++ filing.path names), line, (Page.sourceOf e).lineCount⟩ := by
  have hfile : (directory ++ "/" ++ filing.path names).isEmpty = false := by
    simp [String.append_eq_empty_iff]
  simp [location?, packagePath?, h.file, h.line, hfile]

theorem Placed.address?_eq (h : Placed w e names filing directory line) (repository : String) :
    Page.address? repository w e = .ok (some (Page.address repository
      ((filingOf (directory ++ "/" ++ filing.path names)).path names) line)) := by
  obtain ⟨m, hm⟩ := Option.isSome_iff_exists.mp h.found
  have hname : m.name = ".".intercalate (way names) := by simpa using List.find?_some hm
  have hfile : (directory ++ "/" ++ filing.path names).isEmpty = false := by
    simp [String.append_eq_empty_iff]
  rw [← modulePath_way h.isPart, ← hname]
  have hsource := h.file
  cases e with
  | func f => simp [Page.address?, h.file, h.line, h.home, hm, hfile]
  | cls info layers => simp [Page.address?, h.file, h.line, h.home, hm, hfile]
  | _ => cases hsource

theorem Placed.linksAgree_iff (h : Placed w e names filing directory line)
    (version repository : String) : LinksAgree version repository w e ↔
      packagePath? (directory ++ "/" ++ filing.path names) =
        some ((filingOf (directory ++ "/" ++ filing.path names)).path names) := by
  rw [LinksAgree, h.location?_eq, h.address?_eq, Option.map_some]
  generalize packagePath? (directory ++ "/" ++ filing.path names) = relative?
  constructor
  · rintro ⟨path, line', hmap, hpage⟩
    have hpage := append_cancel (Option.some.inj (Except.ok.inj hpage))
    have hmap := Option.some.inj hmap
    cases relative? with
    | none => exact absurd hmap (address_ne_repositoryAddress rfl version path line')
    | some r =>
      have hcut := (append_cancel hmap).trans hpage.symm
      rw [String.append_left_inj, String.append_left_inj] at hcut
      rw [hcut]
  · rintro rfl
    exact ⟨_, line, rfl, rfl⟩

end Placed

/-- The link of a map and the link of a page agree exactly if the directory that the package lies in
has no part with the name of the package, and a module with a file of its own is not the package
itself and has no name that ends as the file of a package does. -/
theorem links_agree_iff {w : World} {e : Entity} {names : List String} {filing : Filing}
    {directory : String} {line : Int} (h : Placed w e names filing directory line)
    (version repository : String) :
    LinksAgree version repository w e ↔
      "pixeltable" ∉ (Path.ofString directory).parts ∧
        (filing = .single → ∃ last ∈ names.getLast?, ¬"__init__".toList <:+ last.toList) :=
  (h.linksAgree_iff version repository).trans (packagePath?_eq_iff h.isPart directory filing)

/-- A function of a module, with the directory that its package lies in. -/
def blendBelow (directory : String) : Entity :=
  .func ⟨"blend", none, ⟨[], none⟩, some "pixeltable.functions.image", .plain, false,
    ⟨none, .at (directory ++ "/" ++ Filing.single.path ["functions", "image"]), some 7, 1⟩⟩

theorem placed_blendBelow (directory : String) : Placed (imageWorld (blendBelow directory))
    (blendBelow directory) ["functions", "image"] .single directory 7 where
  isPart := by simp [IsPart]
  home := rfl
  found := rfl
  file := rfl
  line := rfl

theorem links_agree_installed :
    LinksAgree "main" "pixeltable/pixeltable" (imageWorld (blendBelow "/lib")) (blendBelow "/lib") :=
  (links_agree_iff (placed_blendBelow "/lib") _ _).mpr
    ⟨by decide, fun _ => ⟨"image", rfl, by decide⟩⟩

/-- In a checkout whose directory is named as the package is, the links do not agree. -/
theorem links_differ_checkout :
    Placed (imageWorld (blendBelow "/pixeltable")) (blendBelow "/pixeltable")
      ["functions", "image"] .single "/pixeltable" 7 ∧
    ¬LinksAgree "main" "pixeltable/pixeltable" (imageWorld (blendBelow "/pixeltable"))
      (blendBelow "/pixeltable") := by
  have hplaced := placed_blendBelow "/pixeltable"
  refine ⟨hplaced, fun h => ?_⟩
  have hdirectory := ((packagePath?_eq_iff hplaced.isPart _ _).mp ((hplaced.linksAgree_iff _ _).mp h)).1
  exact hdirectory (by decide)

end DocSite.Llm
