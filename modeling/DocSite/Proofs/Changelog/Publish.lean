import DocSite.Changelog.Publish
import DocSite.Proofs.Disk
import DocSite.Proofs.Job

/-!
What becomes of the directory of the changelog. It is emptied before the page of the releases is
made, so a page that cannot be made or written costs all that lay there.
-/

namespace DocSite.Changelog

variable {net : Network} {cwd output : Path} {repository : String} {place : List String}
  {disk : Disk} {k : Desk} {releases : Json}

section Readable

/-- The fields of a release that are worked on: the author is an object and the body a text, if
they are there. -/
def IsReadable (fields : List (String × Json)) : Prop :=
  (∀ v, OrderedMap.get? "author" fields = some v → ∃ author, v = .obj author) ∧
    ∀ v, OrderedMap.get? "body" fields = some v → ∃ text, v = .str text

theorem text_eq_ok {v : Json} {operation s : String} : v.text operation = .ok s ↔ v = .str s := by
  cases v <;> simp [Json.text]

theorem isReadable_iff {fields : List (String × Json)} : IsReadable fields ↔
    (∃ author, (OrderedMap.get? "author" fields).getD (.obj []) = .obj author) ∧
      ∃ text, (OrderedMap.get? "body" fields).getD (.str "") = .str text := by
  unfold IsReadable
  cases OrderedMap.get? "author" fields <;> cases OrderedMap.get? "body" fields <;> simp

theorem read_eq_ok_iff (unknown : String) {fields : List (String × Json)} :
    (∃ r, Release.read unknown (.obj fields) = .ok r) ↔ IsReadable fields := by
  rw [isReadable_iff]
  constructor
  · rintro ⟨r, hr⟩
    unfold Release.read at hr
    obtain ⟨tag, -, hr⟩ := Attempt.bind_eq_ok.mp hr
    obtain ⟨name, -, hr⟩ := Attempt.bind_eq_ok.mp hr
    obtain ⟨published, -, hr⟩ := Attempt.bind_eq_ok.mp hr
    obtain ⟨author, hauthor, hr⟩ := Attempt.bind_eq_ok.mp hr
    obtain ⟨login, hlogin, hr⟩ := Attempt.bind_eq_ok.mp hr
    obtain ⟨address, -, hr⟩ := Attempt.bind_eq_ok.mp hr
    obtain ⟨body, hbody, hr⟩ := Attempt.bind_eq_ok.mp hr
    obtain ⟨text, htext, -⟩ := Attempt.bind_eq_ok.mp hr
    obtain ⟨inner, rfl, -⟩ := Json.get_eq_ok.mp hlogin
    rw [text_eq_ok.mp htext] at hbody
    exact ⟨⟨inner, Except.ok.inj hauthor⟩, text, Except.ok.inj hbody⟩
  · rintro ⟨⟨author, hauthor⟩, text, htext⟩
    unfold Release.read
    simp only [Json.get, hauthor, htext]
    exact ⟨_, rfl⟩

/-- A page can be made of releases exactly if each of them can be read. -/
theorem changelogPage_eq_ok_iff (entries : List (List (String × Json))) :
    (∃ page, changelogPage (.arr (entries.map .obj)) = .ok page) ↔
      ∀ fields ∈ entries, IsReadable fields := by
  have hsections : (∃ page, changelogPage (.arr (entries.map .obj)) = .ok page) ↔
      ∃ sections, (entries.map Json.obj).mapM (fun v => do
        return (← Release.read "unknown" v).section : Json → Except Fault String) = .ok sections := by
    constructor
    · rintro ⟨page, h⟩
      obtain ⟨items, hitems, h⟩ := Attempt.bind_eq_ok.mp h
      cases hitems
      obtain ⟨sections, hsections, -⟩ := Attempt.bind_eq_ok.mp h
      exact ⟨sections, hsections⟩
    · rintro ⟨sections, h⟩
      exact ⟨_, Attempt.bind_eq_ok.mpr ⟨_, rfl, Attempt.bind_eq_ok.mpr ⟨sections, h, rfl⟩⟩⟩
  rw [hsections, Attempt.exists_mapM_eq_ok_iff, List.forall_mem_map]
  refine forall₂_congr fun fields _ => ?_
  rw [← read_eq_ok_iff "unknown"]
  constructor
  · rintro ⟨text, h⟩
    obtain ⟨r, hr, -⟩ := Attempt.bind_eq_ok.mp h
    exact ⟨r, hr⟩
  · rintro ⟨r, hr⟩
    exact ⟨r.section, Attempt.bind_eq_ok.mpr ⟨r, hr, rfl⟩⟩

end Readable

section Ending

/-- What there is to publish: releases that have come and can be counted. -/
structure Fetched (net : Network) (repository : String) (releases : Json) : Prop where
  answer : fetchReleases net repository = .ok releases
  isPresent : releases.isPresent = true
  counted : ∃ count, releases.size = .ok count

theorem ends_gatherReleases (net : Network) (text repository : String) (disk : Disk) :
    Job.Ends (gatherReleases net text repository) disk fun r k' => k'.disk = disk ∧
      match r with
      | .ok (some releases) => Fetched net repository releases
      | _ => ∀ releases, ¬Fetched net repository releases := by
  unfold gatherReleases
  apply Job.Ends.print_bind
  apply Job.Ends.print_bind
  apply Job.Ends.print_bind
  cases hfetch : fetchReleases net repository with
  | error fault =>
    intro k hk
    refine ⟨hk, fun releases h => ?_⟩
    cases hfetch.symm.trans h.answer
  | ok releases =>
    have hunique (other : Json) (h : Fetched net repository other) : other = releases :=
      Except.ok.inj (h.answer.symm.trans hfetch)
    refine Job.Ends.ofExcept_bind rfl ?_
    cases hpresent : releases.isPresent with
    | false =>
      intro k hk
      refine ⟨hk, fun other h => ?_⟩
      have hother := h.isPresent
      rw [hunique other h, hpresent] at hother
      cases hother
    | true =>
      rw [if_pos rfl]
      cases hsize : releases.size with
      | error fault =>
        intro k hk
        refine ⟨hk, fun other h => ?_⟩
        obtain ⟨count, hcount⟩ := h.counted
        rw [hunique other h, hsize] at hcount
        cases hcount
      | ok count =>
        intro k hk
        exact ⟨hk, hfetch, hpresent, count, hsize⟩

/-- Whether the work on the page begins: there are releases, and the place for it can be had. -/
def Begins (net : Network) (repository : String) (place : List String) (disk : Disk)
    (releases : Json) : Prop :=
  Fetched net repository releases ∧ ∃ disk', disk.makeDir place = .ok disk'

theorem Begins.unique {other : Json} (hother : Begins net repository place disk other)
    (h : Begins net repository place disk releases) : other = releases :=
  Except.ok.inj (hother.1.answer.symm.trans h.1.answer)

/-- Whether the page of some releases can be made, and has bytes. -/
def Writable (releases : Json) : Prop :=
  ∃ page, changelogPage releases = .ok page ∧ Text.firstHalves? 0 page.toList = none

/-- What lies in the directory if the page of some releases cannot be made or written: nothing, or
the file that was opened for it. -/
def remains (releases : Json) : Tree := fun parts =>
  if parts = ["changelog.mdx"] ∧ (changelogPage releases).isOk = true then some "" else none

/-- How the work ends, and with what in the directory if it fails. -/
def PublishEnd (net : Network) (repository : String) (place : List String) (disk : Disk)
    (r : Except Halt Unit) (disk' : Disk) : Prop :=
  (∃ releases, Begins net repository place disk releases ∧
    (Writable releases ∧ r = .ok () ∨
      ¬Writable releases ∧ (∃ halt, r = .error halt) ∧ disk'.tree place = remains releases)) ∨
    (∀ releases, ¬Begins net repository place disk releases) ∧ disk'.tree place = disk.tree place

theorem PublishEnd.of_not_begins {r : Except Halt Unit}
    (h : ∀ releases, ¬Begins net repository place disk releases) :
    PublishEnd net repository place disk r disk := .inr ⟨h, rfl⟩

theorem tree_put_changelog (disk : Disk) (place parts : List String) (text : String) :
    (disk.put (place ++ ["changelog.mdx"]) (.file text)).tree place parts =
      if parts = ["changelog.mdx"] then some text else disk.tree place parts := by
  rw [Disk.tree, Disk.fileAt_put_file (by simp), Disk.tree]
  simp only [List.append_cancel_left_eq]

/-- The last steps, from the directory on. -/
def makePage (place : List String) (releases : Json) : Job Unit := do
  Job.change (·.makeDir place)
  Job.print "   Creating consolidated changelog ..."
  let page ← Job.ofExcept (changelogPage releases)
  Job.writeText (place ++ ["changelog.mdx"]) page.toList
  Job.print "   Changelog generated successfully."

/-- With nothing in the way, the page is written or the directory is left with what remains. -/
theorem ends_makePage {made : Disk} (hmake : disk.makeDir place = .ok made)
    (hempty : disk.tree place = fun _ => none)
    (hfree : disk.exists? (place ++ ["changelog.mdx"]) = false) (releases : Json) :
    Job.Ends (makePage place releases) disk fun r k' =>
      Writable releases ∧ r = .ok () ∨
        ¬Writable releases ∧ (∃ halt, r = .error halt) ∧ k'.disk.tree place = remains releases := by
  have htree : made.tree place = fun _ => none := by
    obtain ⟨-, -, -, rfl⟩ := Disk.makeDir_eq_ok_iff.mp hmake
    rw [Disk.tree_fill, hempty]
  have hwrite (text : String) := Disk.write_made hmake rfl hfree text
  refine Job.Ends.change_bind_of_ok hmake ?_
  apply Job.Ends.print_bind
  cases hpage : changelogPage releases with
  | error fault =>
    rintro k rfl
    right
    refine ⟨?_, ⟨_, rfl⟩, ?_⟩
    · rintro ⟨page, h, -⟩
      cases hpage.symm.trans h
    · change k.disk.tree place = _
      funext parts
      rw [htree, remains, hpage]
      simp [Except.isOk, Except.toBool]
  | ok page =>
    refine Job.Ends.ofExcept_bind rfl ?_
    rintro k rfl
    rw [Job.result_bind, Job.result_writeText hwrite]
    cases hhalves : Text.firstHalves? 0 page.toList with
    | none => exact .inl ⟨⟨page, hpage, hhalves⟩, rfl⟩
    | some found =>
      right
      refine ⟨?_, ⟨_, rfl⟩, ?_⟩
      · rintro ⟨other, hother, hnone⟩
        cases hpage.symm.trans hother
        cases hhalves.symm.trans hnone
      · funext parts
        rw [tree_put_changelog, htree, remains, hpage]
        simp [Except.isOk, Except.toBool]

theorem not_begins_of_barred (h : ∀ d, disk.makeDir place ≠ .ok d) (releases : Json) :
    ¬Begins net repository place disk releases := by
  rintro ⟨-, d, hd⟩
  exact h d hd

theorem ends_publish (net : Network) (cwd output : Path) (repository : String)
    (hsound : disk.IsSound) :
    Job.Ends (publish net cwd output repository) disk fun r k' =>
      PublishEnd net repository (cwd.join output).place disk r k'.disk := by
  unfold publish
  refine Job.Ends.kept_bind (ends_gatherReleases net output.toString repository disk) ?_ ?_
  · rintro halt k' hend rfl
    exact .of_not_begins fun releases hbegins => hend releases hbegins.1
  intro found hend
  cases found with
  | none =>
    rintro k rfl
    exact .of_not_begins fun releases hbegins => hend releases hbegins.1
  | some releases =>
    dsimp only at hend ⊢
    generalize (cwd.join output).place = place
    cases hnames : Disk.checkNames place with
    | error fault =>
      rintro k rfl
      refine .of_not_begins (not_begins_of_barred fun d hd => ?_)
      have hplace := Disk.checkPlace_eq_ok_iff.mp (Disk.makeDir_eq_ok_iff.mp hd).1
      have hok := Disk.checkNames_eq_ok_iff.mpr fun s hs => (hplace s hs).2.2
      cases hnames.symm.trans hok
    | ok u =>
      refine Job.Ends.ofExcept_bind rfl (Job.Ends.disk_bind ?_)
      rcases hfind : disk.find? place with _ | ⟨_⟩ | text
      · -- a free place has nothing below it
        have hempty := hsound.tree_of_free hfind
        have hfree := hsound.exists?_below hfind (q := ["changelog.mdx"]) (by simp)
        cases hmake : disk.makeDir place with
        | error fault =>
          rintro k rfl
          have hfail : (makePage place releases).result k = (.error (.failed fault), k) :=
            Job.bind_of_error (Job.change_of_error hmake)
          change PublishEnd net repository place k.disk ((makePage place releases).result k).1
            ((makePage place releases).result k).2.disk
          rw [hfail]
          refine .of_not_begins (not_begins_of_barred fun d hd => ?_)
          cases hmake.symm.trans hd
        | ok made =>
          intro k hk
          exact .inl ⟨releases, ⟨hend, made, hmake⟩, ends_makePage hmake hempty hfree releases k hk⟩
      · -- a directory goes with all that lies below it
        have hdir : disk.isDir place = true := by simp [Disk.isDir, hfind]
        have hmake := hsound.makeDir_eq hdir
        have hfree : (disk.remove place).exists? (place ++ ["changelog.mdx"]) = false := by
          rw [Disk.exists?, Disk.find?_remove (by simp), if_pos (List.prefix_append _ _)]
          rfl
        apply Job.Ends.print_bind
        refine Job.Ends.disk_bind (Job.Ends.setDisk_bind ?_)
        intro k hk
        exact .inl ⟨releases, ⟨hend, _, hmake⟩,
          ends_makePage (Disk.makeDir_remove hmake) (disk.tree_remove place) hfree releases k hk⟩
      · rintro k rfl
        refine .of_not_begins (not_begins_of_barred fun d hd => ?_)
        have hfile := (Disk.makeDir_eq_ok_iff.mp hd).2.2.1
        simp [Disk.fileAt, hfind] at hfile

/-- Once the work has begun, releases of which no page can be made cost all that lay there. -/
theorem publish_of_unreadable (hplace : (cwd.join output).place = place) (hsound : k.disk.IsSound)
    (hbegins : Begins net repository place k.disk releases)
    (hpage : ¬∃ page, changelogPage releases = .ok page) :
    let done := (publish net cwd output repository).result k
    (∃ halt, done.1 = .error halt) ∧ done.2.disk.tree place = fun _ => none := by
  subst hplace
  rcases (ends_publish net cwd output repository hsound).at_desk with
    ⟨other, hother, hend⟩ | ⟨hnone, -⟩
  · have heq : other = releases := hother.unique hbegins
    rw [heq] at hend
    rcases hend with ⟨⟨page, h, -⟩, -⟩ | ⟨-, hfails, htree⟩
    · exact absurd ⟨page, h⟩ hpage
    · refine ⟨hfails, ?_⟩
      rw [htree]
      funext parts
      rw [remains, if_neg]
      rintro ⟨-, hok⟩
      cases hmade : changelogPage releases with
      | error fault => simp [hmade, Except.isOk, Except.toBool] at hok
      | ok page => exact hpage ⟨page, hmade⟩
  · exact absurd hbegins (hnone _)

end Ending

/-- A failure leaves the files of the directory as they were exactly if the work had not begun, or
if what it leaves is what was there before. A page can be made of releases if each has an author
that is an object and a body that is a text, or none. -/
theorem failed_publish_keeps_iff (net : Network) (cwd output : Path) (repository : String)
    (hsound : k.disk.IsSound) :
    let done := (publish net cwd output repository).result k
    let place := (cwd.join output).place
    ((∀ halt, done.1 = .error halt → done.2.disk.tree place = k.disk.tree place) ↔
      ∀ releases, Begins net repository place k.disk releases → ¬Writable releases →
        k.disk.tree place = remains releases) ∧
      ∀ entries : List (List (String × Json)),
        (∃ page, changelogPage (.arr (entries.map .obj)) = .ok page) ↔
          ∀ fields ∈ entries, IsReadable fields := by
  intro done place
  refine ⟨?_, changelogPage_eq_ok_iff⟩
  have hend : PublishEnd net repository place k.disk done.1 done.2.disk :=
    (ends_publish net cwd output repository hsound).at_desk
  rcases hend with ⟨releases, hbegins, hend⟩ | ⟨hnone, htree⟩
  · rcases hend with ⟨hwritable, hok⟩ | ⟨hnot, ⟨halt, herror⟩, htree⟩
    · refine iff_of_true (fun halt herror => ?_) fun other hother hnot => ?_
      · cases hok.symm.trans herror
      · rw [hother.unique hbegins] at hnot
        exact absurd hwritable hnot
    · rw [htree]
      constructor
      · intro h other hother _
        rw [hother.unique hbegins]
        exact (h halt herror).symm
      · intro h _ _
        exact (h releases hbegins hnot).symm
  · exact iff_of_true (fun _ _ => htree) fun releases hbegins _ => absurd hbegins (hnone releases)

/-- A directory with a page in it. -/
def published (page : String) : Disk :=
  { nodes := [(["out"], .dir), (["out", "changelog.mdx"], .file page)] }

theorem isSound_published (page : String) : (published page).IsSound := by
  apply Disk.isSound_of_nodes
  simp only [published, List.forall_mem_cons]
  refine ⟨⟨rfl, ?_⟩, ⟨rfl, ?_⟩, by simp⟩
  · simp [Disk.upTo]
  · simp [Disk.upTo, Disk.isDir, Disk.find?, Disk.lookup]

/-- Where the address does not answer, the page that was there stays. -/
theorem failed_publish_keeps_unanswered :
    let done := (publish [] ⟨"/", []⟩ ⟨"", ["out"]⟩ "r").result (Desk.on (published "old"))
    (published "old").IsSound ∧ (∃ halt, done.1 = .error halt) ∧
      done.2.disk.tree ["out"] = (published "old").tree ["out"] := by
  intro done
  have hsound := isSound_published "old"
  have hfails : ∃ halt, done.1 = .error halt := by
    refine ⟨.failed ?_, ?_⟩
    rotate_left
    · unfold done publish gatherReleases
      exact rfl
  refine ⟨hsound, hfails, ?_⟩
  obtain ⟨halt, hhalt⟩ := hfails
  refine (failed_publish_keeps_iff [] ⟨"/", []⟩ ⟨"", ["out"]⟩ "r" hsound).1.mpr ?_ halt hhalt
  rintro releases ⟨hfetched, -⟩
  cases hfetched.answer

theorem fetchReleases_page {text link : String} (hparse : Json.parse text = .ok releases) :
    fetchReleases [(releasesAddress repository, .page text link)] repository = .ok releases := by
  simp [fetchReleases, Network.load, Network.visit, OrderedMap.get?, hparse, bind, Except.bind, pure,
    Except.pure]

/-- Whether what was read is one release with a null for its body. -/
def isNullRelease : Except Fault Json → Bool
  | .ok (.arr [.obj [(name, .null)]]) => name = "body"
  | _ => false

theorem eq_of_isNullRelease {r : Except Fault Json} (h : isNullRelease r = true) :
    r = .ok (.arr [.obj [("body", .null)]]) := by
  unfold isNullRelease at h
  split at h
  · rw [of_decide_eq_true h]
  · cases h

/-- A release whose body is a null costs the page that was there. -/
theorem failed_publish_loses_page :
    let net : Network := [(releasesAddress "r", .page "[\x7b\"body\":null\x7d]" "")]
    let done := (publish net ⟨"/", []⟩ ⟨"", ["out"]⟩ "r").result (Desk.on (published "old"))
    (∃ halt, done.1 = .error halt) ∧
      (published "old").tree ["out"] ["changelog.mdx"] = some "old" ∧
      done.2.disk.tree ["out"] ["changelog.mdx"] = none := by
  have hsound := isSound_published "old"
  have hparse : Json.parse "[\x7b\"body\":null\x7d]" = .ok (.arr [.obj [("body", .null)]]) :=
    eq_of_isNullRelease (by decide +kernel)
  have hpage : ¬∃ page, changelogPage (.arr [.obj [("body", .null)]]) = .ok page := by
    intro h
    have hread := (changelogPage_eq_ok_iff [[("body", .null)]]).mp h
    obtain ⟨text, htext⟩ := (hread _ List.mem_cons_self).2 .null rfl
    cases htext
  have hbegins : Begins [(releasesAddress "r", .page "[\x7b\"body\":null\x7d]" "")] "r" ["out"]
      (published "old") (.arr [.obj [("body", .null)]]) :=
    ⟨⟨fetchReleases_page hparse, rfl, 1, rfl⟩, _, hsound.makeDir_eq rfl⟩
  intro net done
  have hplace : (Path.join ⟨"/", []⟩ ⟨"", ["out"]⟩).place = ["out"] := rfl
  obtain ⟨hfails, htree⟩ := publish_of_unreadable hplace (k := Desk.on (published "old"))
    hsound hbegins hpage
  refine ⟨hfails, rfl, ?_⟩
  rw [htree]

end DocSite.Changelog
