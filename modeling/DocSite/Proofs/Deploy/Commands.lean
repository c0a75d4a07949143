import DocSite.Proofs.Deploy.Checkout

namespace DocSite

/-- Whether a command takes commits to another repository. -/
def Command.isPush (c : Command) : Bool := c.words.take 2 = ["git", "push"]

/-- A command of a plan, and whether the plan is gone on with after it. -/
structure Stage where
  command : Command
  goesOn : Bool

namespace Stage

/-- The commands of a plan that are given: those up to the first after which it is given up. -/
def given : List Stage → List Command
  | [] => []
  | stage :: plan => stage.command :: if stage.goesOn then given plan else []

theorem given_isPrefix (plan : List Stage) : given plan <+: plan.map command := by
  induction plan with
  | nil => exact List.prefix_rfl
  | cons stage plan ih =>
    rw [given, List.map_cons, List.prefix_cons_inj]
    split
    · exact ih
    · exact List.nil_prefix

/-- A plan whose last command is given is gone on with up to there. -/
theorem mem_given_last {plan : List Stage} {last : Stage} (hnew : last.command ∉ plan.map command) :
    last.command ∈ given (plan ++ [last]) ↔ ∀ stage ∈ plan, stage.goesOn = true := by
  induction plan with
  | nil => simp [given]
  | cons stage plan ih =>
    obtain ⟨hne, hnew⟩ := not_or.mp (mt List.mem_cons.mpr hnew)
    rw [List.cons_append, given, List.mem_cons, List.forall_mem_cons]
    cases stage.goesOn with
    | false => simp [hne]
    | true => simp [hne, ih hnew]

theorem given_eq {plan : List Stage} {last : Stage} (h : ∀ stage ∈ plan, stage.goesOn = true) :
    given (plan ++ [last]) = (plan ++ [last]).map command := by
  induction plan with
  | nil => simp [given]
  | cons stage plan ih =>
    obtain ⟨hstage, hplan⟩ := List.forall_mem_cons.mp h
    rw [List.cons_append, given, hstage, if_pos rfl, ih hplan, List.map_cons]

end Stage

namespace Job

variable {α β : Type} {x : Job α} {f : α → Job β} {plan plan' : List Stage} {c : Command} {o : α}
  {goesOn : Bool}

instance : Hides Desk.withDisk Desk.commands := ⟨fun _ _ => rfl⟩

instance : Hides Desk.withOut Desk.commands := ⟨fun _ _ => rfl⟩

/-- A job that gives no commands. -/
abbrev Quiet (x : Job α) : Prop := Keeps Desk.commands x

/-- A job that gives a single command, and that ends in one way whatever it finds. -/
def Calls (c : Command) (r : Except Halt α) (x : Job α) : Prop :=
  ∀ k, ∃ k', x.result k = (r, k') ∧ k'.commands = k.commands ++ [c]

theorem calls_call (sh : Shell) (c : Command) : Calls c (.ok (sh.outcome c)) (sh.call c) :=
  fun _ => ⟨_, rfl, rfl⟩

/-- A job that follows a plan. It may stop anywhere, but it has succeeded only if it has come to
the end of the plan. -/
def Follows (plan : List Stage) (x : Job α) : Prop :=
  ∀ k, ∃ trace, (x.result k).2.commands = k.commands ++ trace ∧
    trace <+: plan.map Stage.command ∧
    ∀ a, (x.result k).1 = .ok a →
      trace = plan.map Stage.command ∧ ∀ stage ∈ plan, stage.goesOn = true

namespace Follows

theorem of_quiet (h : Quiet x) : Follows [] x := by
  intro k
  exact ⟨[], by rw [h k, List.append_nil], List.prefix_rfl, fun _ _ => ⟨rfl, by simp⟩⟩

theorem exit_bind (code : Int) (f : α → Job β) : Follows plan (Job.exit code >>= f) :=
  fun k => ⟨[], (List.append_nil k.commands).symm, List.nil_prefix, nofun⟩

theorem bind (hx : Follows plan x) (hf : ∀ a, Follows plan' (f a)) :
    Follows (plan ++ plan') (x >>= f) := by
  intro k
  obtain ⟨trace, hcommands, hpre, hok⟩ := hx k
  rw [result_bind, List.map_append]
  rcases hr : x.result k with ⟨halt | a, k₁⟩
  · rw [hr] at hcommands
    exact ⟨trace, hcommands, hpre.trans (List.prefix_append _ _), nofun⟩
  · rw [hr] at hcommands hok
    obtain ⟨rfl, hgo⟩ := hok a rfl
    obtain ⟨trace', hcommands', hpre', hok'⟩ := hf a k₁
    refine ⟨plan.map Stage.command ++ trace', ?_, (List.prefix_append_right_inj _).mpr hpre',
      fun b hb => ?_⟩
    · rw [hcommands', hcommands, List.append_assoc]
    · obtain ⟨rfl, hgo'⟩ := hok' b hb
      exact ⟨rfl, List.forall_mem_append.mpr ⟨hgo, hgo'⟩⟩

theorem quiet_bind (hx : Quiet x) (hf : ∀ a, Follows plan (f a)) : Follows plan (x >>= f) :=
  (of_quiet hx).bind hf

theorem bind_quiet (hx : Follows plan x) (hf : ∀ a, Quiet (f a)) : Follows plan (x >>= f) := by
  simpa using hx.bind fun a => of_quiet (hf a)

theorem ite {p : Prop} [Decidable p] {y : Job α} (hx : Follows plan x) (hy : Follows plan y) :
    Follows plan (if p then x else y) := by
  split
  · exact hx
  · exact hy

theorem calls_bind (hx : Calls c (.ok o) x) (hf : Quiet (f o))
    (hgo : ∀ k b k', (f o).result k = (.ok b, k') → goesOn = true) :
    Follows [⟨c, goesOn⟩] (x >>= f) := by
  intro k
  obtain ⟨k', hk', hcommands⟩ := hx k
  rw [bind_of_ok hk']
  refine ⟨[c], (hf k').trans hcommands, List.prefix_rfl, fun b hb => ⟨rfl, ?_⟩⟩
  rw [List.forall_mem_singleton]
  exact hgo k' b _ (Prod.ext hb rfl)

theorem require (sh : Shell) (c : Command) :
    Follows [⟨c, (sh.outcome c).code = 0⟩] (sh.require c) := by
  refine calls_bind (calls_call sh c) (.ite (.pure _) (.fail _)) fun k b k' h => ?_
  split at h
  · exact decide_eq_true ‹_›
  · exact absurd h fail_ne_ok

end Follows

/-- A job that carries out a plan as far as it is gone on with. It fails only where the plan is
given up. -/
def Carries (plan : List Stage) (x : Job α) : Prop :=
  ∀ k, (x.result k).2.commands = k.commands ++ Stage.given plan ∧
    ∀ halt, (x.result k).1 = .error halt → ∃ stage ∈ plan, stage.goesOn = false

namespace Carries

theorem print (line : String) : Carries [] (Job.print line) :=
  fun k => ⟨(List.append_nil k.commands).symm, nofun⟩

theorem print_bind {line : String} {g : Unit → Job β} (h : Carries plan (g ())) :
    Carries plan (Job.print line >>= g) := fun _ => h _

theorem bind_print (hx : Carries plan x) (line : String) :
    Carries plan (x >>= fun _ => Job.print line) := by
  intro k
  have hk := hx k
  rcases hr : x.result k with ⟨halt | a, k'⟩
  · rw [hr] at hk
    rw [bind_of_error hr]
    exact ⟨hk.1, fun _ _ => hk.2 halt rfl⟩
  · rw [hr] at hk
    rw [bind_of_ok hr]
    exact ⟨hk.1, nofun⟩

theorem calls_bind (hx : Calls c (.ok o) x) (hgo : goesOn = true → Carries plan (f o))
    (hstop : goesOn = false → Quiet (f o)) : Carries (⟨c, goesOn⟩ :: plan) (x >>= f) := by
  intro k
  obtain ⟨k', hk', hcommands⟩ := hx k
  rw [bind_of_ok hk', Stage.given]
  cases hgoes : goesOn with
  | false =>
    refine ⟨(hstop hgoes k').trans ?_, fun _ _ => ⟨_, List.mem_cons_self, rfl⟩⟩
    simp [hcommands]
  | true =>
    obtain ⟨hrest, herror⟩ := hgo hgoes k'
    refine ⟨?_, fun halt h => ?_⟩
    · simp [hrest, hcommands]
    · obtain ⟨stage, hstage, hstop⟩ := herror halt h
      exact ⟨stage, List.mem_cons_of_mem _ hstage, hstop⟩

theorem calls_bind_of_error {halt : Halt} (hx : Calls c (.error halt) x) (hstop : goesOn = false) :
    Carries (⟨c, goesOn⟩ :: plan) (x >>= f) := by
  intro k
  obtain ⟨k', hk', hcommands⟩ := hx k
  rw [bind_of_error hk', Stage.given]
  refine ⟨?_, fun _ _ => ⟨_, List.mem_cons_self, hstop⟩⟩
  simp [hstop, hcommands]

theorem require_bind {sh : Shell} {f : Outcome → Job β}
    (h : (sh.outcome c).code = 0 → Carries plan (f (sh.outcome c))) :
    Carries (⟨c, (sh.outcome c).code = 0⟩ :: plan) (sh.require c >>= f) := by
  rw [Shell.require, bind_assoc]
  refine calls_bind (calls_call sh c) (fun hgo => ?_) fun hstop => ?_
  · rw [if_pos (of_decide_eq_true hgo), pure_bind]
    exact h (of_decide_eq_true hgo)
  · rw [if_neg (of_decide_eq_false hstop)]
    exact fun _ => rfl

end Carries

end Job

namespace Site

/-- The errors that are found in a site, unless what was printed cannot be read. -/
def problems (sh : Shell) : Except Halt (List String) :=
  match sh.preview with
  | .unable reason => .ok ["⚠️  Could not run validation: " ++ reason]
  | .ended out err => .ok (parsingErrors (err ++ out).toList)
  | .timedOut (.text out) (.text err) => .ok (parsingErrors (err ++ out).toList)
  | .timedOut _ (.bytes reason) => .error (.failed (.undecodable reason))
  | .timedOut (.bytes reason) (.text _) => .error (.failed (.undecodable reason))

theorem tellErrors_result (errors : List String) (k : Desk) :
    ∃ k', (tellErrors errors).result k = (.ok errors, k') ∧ k'.commands = k.commands := by
  have hlines (lines : List String) (k : Desk) : ∃ k',
      (lines.forM fun e => Job.print ("   " ++ e)).result k = (.ok (), k') ∧
        k'.commands = k.commands := by
    induction lines generalizing k with
    | nil => exact ⟨k, rfl, rfl⟩
    | cons e es ih => exact ih _
  unfold tellErrors
  split
  · exact ⟨_, rfl, rfl⟩
  · obtain ⟨k', hk', hcommands⟩ := hlines errors _
    exact ⟨k', Job.bind_of_ok (f := fun _ => pure errors) hk', hcommands⟩

theorem calls_check (sh : Shell) (site : Path) :
    Job.Calls (previewCommand site) (problems sh) (check sh site) := by
  intro k
  unfold check problems
  cases sh.preview with
  | unable reason => exact ⟨_, rfl, rfl⟩
  | ended out err => exact tellErrors_result (parsingErrors (err ++ out).toList) _
  | timedOut out err =>
    cases err with
    | bytes reason => cases out <;> exact ⟨_, rfl, rfl⟩
    | text err =>
      cases out with
      | bytes reason => exact ⟨_, rfl, rfl⟩
      | text out => exact tellErrors_result (parsingErrors (err ++ out).toList) _

theorem check_result (sh : Shell) (site : Path) (k : Desk) :
    ((check sh site).result k).1 = problems sh := by
  obtain ⟨k', hk', -⟩ := calls_check sh site k
  rw [hk']

end Site

namespace Deploy.Deployment

variable (d : Deployment)

def head : Command := ⟨["git", "rev-parse", "HEAD"], some d.repository.toString⟩

def clone : Command := Shell.cloneCommand d.branch d.checkout

def add : Command := d.git ["add", "-A"]

def diff : Command := d.git ["diff", "--staged", "--quiet"]

def commit (message : String) : Command := d.git ["commit", "-m", message]

def push : Command := d.git ["push", "origin", d.branch]

/-- The code that a command ends with. -/
def code (c : Command) : Int := (d.shell.outcome c).code

/-- A command that must succeed. -/
def required (c : Command) : Stage := ⟨c, d.code c = 0⟩

/-- Whether the look at the finished site lets it be published. -/
def passes : Bool :=
  match Site.problems d.shell with
  | .ok errors => errors.isEmpty || d.isDraft
  | .error _ => false

/-- What is done before a push. -/
def committing (message : String) : List Stage :=
  [⟨Site.previewCommand d.checkout, d.passes⟩, d.required d.add, ⟨d.diff, d.code d.diff ≠ 0⟩,
    d.required (d.commit message)]

variable {d}

theorem follows_builtFrom : Job.Follows [d.required d.head] d.builtFrom :=
  .bind_quiet (.require _ _) fun _ => .pure _

theorem follows_announce (version : String) :
    Job.Follows [d.required d.head] (d.announce version) := by
  have hrest (label : Label) (commit : String) : Job.Quiet (do
      Job.print ("   Cloning into " ++ d.checkout.toString ++ " ...")
      return (label, commit)) := .bind (.print _) fun _ => .pure _
  refine .quiet_bind .disk fun disk => .ite ?_ ?_
  · exact .quiet_bind (.print _) fun _ => .exit_bind _ _
  · refine .quiet_bind (.ofExcept _) fun label => .bind_quiet follows_builtFrom fun commit => ?_
    refine .bind (.print _) fun _ => .ite ?_ ?_
    · exact .bind (.print _) fun _ => hrest label commit
    · exact hrest label commit

theorem calls_clone (sh : Shell) (branch : String) (target : Path) :
    Job.Calls (Shell.cloneCommand branch target)
      (.ok (sh.outcome (Shell.cloneCommand branch target))) (sh.clone branch target) := by
  intro k
  unfold Shell.clone
  obtain ⟨k₁, hk₁, hcommands⟩ := Job.calls_call sh (Shell.cloneCommand branch target) k
  rw [Job.bind_of_ok hk₁]
  split
  · exact ⟨_, rfl, hcommands⟩
  · exact ⟨_, rfl, hcommands⟩

theorem follows_fetch : Job.Follows [d.required d.clone] d.fetch := by
  have hread (path : Path) : Job.Quiet (Site.Store.readJson path.place) :=
    .bind (.readText _) fun _ => .ofExcept _
  refine .calls_bind (calls_clone _ _ _) ?_ fun k r k' h => ?_
  · refine .ite (fun _ => rfl) ?_
    exact .bind (hread _) fun _ => .bind (hread _) fun _ => .pure _
  · split at h
    · obtain ⟨_, _, hfail, -⟩ := Job.bind_eq_ok.mp h
      exact absurd hfail Job.fail_ne_ok
    · exact decide_eq_true (Decidable.not_not.mp ‹_›)

theorem quiet_copyPages (names : List String) : Job.Quiet (d.copyPages names) := by
  induction names with
  | nil => exact .pure _
  | cons name names ih =>
    exact .bind .disk fun _ => .ite (.fail _) (.bind (.setDisk _) fun _ => ih)

theorem quiet_copyReference (name : String) : Job.Quiet (d.copyReference name) := by
  have hdrop (target : Path) : Job.Quiet (dropReference target) := by
    refine .bind .disk fun disk => ?_
    split
    · exact .fail _
    · exact .bind .disk fun _ => .setDisk _
    · exact .pure _
  have hlay (target : Path) : Job.Quiet (d.layReference target) := by
    refine .bind .disk fun disk => ?_
    split
    · exact .bind (.ofExcept _) fun _ => .bind .disk fun _ => .setDisk _
    · exact .fail _
    · exact .fail _
  exact .bind (.print _) fun _ => .bind (.ofExcept _) fun _ => .bind (hdrop _) fun _ => hlay _

theorem quiet_layFiles (label : String) : Job.Quiet (d.layFiles label) := by
  refine .bind .disk fun _ => .bind (.setDisk _) fun _ => .bind (.print _) fun _ => ?_
  refine .bind .disk fun _ => .bind (quiet_copyPages _) fun _ => .bind (.change _) fun _ => ?_
  exact .bind (quiet_copyReference _) fun _ => quiet_copyReference _

theorem quiet_configuration (label : String) (existing new : Json) :
    Job.Quiet (d.configuration label existing new) := by
  refine .bind (.ofExcept _) fun docs => .ite (.pure _) ?_
  exact .bind (.print _) fun _ => .bind (.ofExcept _) fun _ => .pure _

theorem follows_assemble (label : String) :
    Job.Follows [d.required d.clone] (d.assemble label) := by
  refine .bind_quiet follows_fetch fun docs => .bind (quiet_layFiles _) fun _ => ?_
  exact .bind (quiet_configuration _ _ _) fun _ => .change _

theorem carries_publish (message : String) :
    Job.Carries [d.required d.add, ⟨d.diff, d.code d.diff ≠ 0⟩, d.required (d.commit message),
      d.required d.push] (d.publish message) := by
  refine .require_bind fun _ => .calls_bind (Job.calls_call _ _) (fun hgo => ?_) fun hstop => ?_
  · have hcode : (d.shell.outcome d.diff).code ≠ 0 := of_decide_eq_true hgo
    rw [if_neg hcode]
    exact .print_bind (.require_bind fun _ => .print_bind (.require_bind fun _ => .print _))
  · have hcode : (d.shell.outcome d.diff).code = 0 :=
      Decidable.not_not.mp (of_decide_eq_false hstop)
    rw [if_pos hcode]
    exact .print _

theorem carries_conclude (label commit : String) :
    Job.Carries (d.committing ("Deploy documentation " ++ label ++ " from " ++ commit) ++
      [d.required d.push]) (d.conclude label commit) := by
  have hcheck := Site.calls_check d.shell d.checkout
  cases hproblems : Site.problems d.shell with
  | error halt =>
    rw [hproblems] at hcheck
    exact .calls_bind_of_error hcheck (by rw [passes, hproblems])
  | ok errors =>
    rw [hproblems] at hcheck
    have hpasses : d.passes = (errors.isEmpty || d.isDraft) := by rw [passes, hproblems]
    refine .calls_bind hcheck (fun hgo => ?_) fun hstop => ?_
    · rw [← Bool.not_or, ← hpasses, hgo, if_neg (by simp)]
      exact (carries_publish _).bind_print _
    · rw [← Bool.not_or, ← hpasses, hstop, if_pos (by simp)]
      exact .bind (.print _) fun _ => .exit_bind _ _

/-- All that comes before the finished site is published. -/
def prepare (d : Deployment) (version : String) : Job (Label × String) := do
  let (label, commit) ← d.announce version
  d.assemble label.text
  return (label, commit)

theorem run_eq (version : String) :
    d.run version = d.prepare version >>= fun r => d.conclude r.1.text r.2 := by
  simp [run, prepare, bind_assoc]

theorem follows_prepare (version : String) :
    Job.Follows [d.required d.head, d.required d.clone] (d.prepare version) :=
  (follows_announce version).bind fun _ => .bind_quiet (follows_assemble _) fun _ => .pure _

theorem prepare_eq_ok {version : String} {r : Label × String} {k k' : Desk}
    (h : (d.prepare version).result k = (.ok r, k')) : d.Writes version k k' := by
  unfold prepare at h
  obtain ⟨⟨label, commit⟩, k₀, hannounce, h⟩ := Job.bind_eq_ok.mp h
  obtain ⟨_, k₁, hassemble, hpure⟩ := Job.bind_eq_ok.mp h
  cases hpure
  exact ⟨label, commit, k₀, hannounce, hassemble⟩

theorem Writes.prepare_eq {version : String} {k k' : Desk} (h : d.Writes version k k') :
    ∃ r, (d.prepare version).result k = (.ok r, k') := by
  obtain ⟨label, commit, k₀, hannounce, hassemble⟩ := h
  exact ⟨(label, commit), Job.bind_eq_ok.mpr ⟨_, k₀, hannounce,
    Job.bind_eq_ok.mpr ⟨(), k', hassemble, rfl⟩⟩⟩

/-- The commands of a deployment that goes all the way. -/
def plan (d : Deployment) (message : String) : List Command :=
  [d.head, d.clone, Site.previewCommand d.checkout, d.add, d.diff, d.commit message, d.push]

/-- The commands of a deployment that comes as far as a complete working tree. -/
def issued (d : Deployment) (message : String) : List Command :=
  [d.head, d.clone] ++ Stage.given (d.committing message ++ [d.required d.push])

theorem map_committing (message : String) :
    [d.head, d.clone] ++ (d.committing message ++ [d.required d.push]).map Stage.command =
      d.plan message := rfl

theorem issued_isPrefix (message : String) : d.issued message <+: d.plan message := by
  rw [issued, ← map_committing, List.prefix_append_right_inj]
  exact Stage.given_isPrefix _

theorem push_not_mem_preparing : d.push ∉ [d.head, d.clone] := by
  simp [push, head, clone, git, Shell.cloneCommand]

theorem push_mem_issued {message : String} :
    d.push ∈ d.issued message ↔ ∀ stage ∈ d.committing message, stage.goesOn = true := by
  have hnew : d.push ∉ (d.committing message).map Stage.command := by
    simp [committing, required, push, add, diff, commit, git, Site.previewCommand]
  rw [issued, List.mem_append, or_iff_right push_not_mem_preparing]
  exact Stage.mem_given_last hnew

theorem issued_eq_plan {message : String} (h : d.push ∈ d.issued message) :
    d.issued message = d.plan message := by
  rw [issued, Stage.given_eq (push_mem_issued.mp h), map_committing]

theorem goesOn_committing {message : String} :
    (∀ stage ∈ d.committing message, stage.goesOn = true) ↔
      (∃ errors, Site.problems d.shell = .ok errors ∧ (d.branch ≠ "dev" → errors = [])) ∧
        d.code d.add = 0 ∧ d.code d.diff ≠ 0 ∧ d.code (d.commit message) = 0 := by
  have hdraft : d.isDraft = true ↔ d.branch = "dev" := decide_eq_true_iff
  have hpasses : d.passes = true ↔
      ∃ errors, Site.problems d.shell = .ok errors ∧ (d.branch ≠ "dev" → errors = []) := by
    unfold passes
    cases Site.problems d.shell with
    | error halt => simp
    | ok errors => simp [hdraft, Decidable.or_iff_not_imp_right]
  simp [committing, required, hpasses]

theorem run_of_error {version : String} {halt : Halt} {k k' : Desk}
    (h : (d.prepare version).result k = (.error halt, k')) :
    ∃ trace, ((d.run version).result k).2.commands = k.commands ++ trace ∧
      trace <+: [d.head, d.clone] := by
  obtain ⟨trace, hcommands, hpre, -⟩ := follows_prepare (d := d) version k
  rw [h] at hcommands
  rw [run_eq, Job.bind_of_error h]
  exact ⟨trace, hcommands, hpre⟩

theorem run_of_ok {version : String} {r : Label × String} {k k' : Desk}
    (h : (d.prepare version).result k = (.ok r, k')) :
    d.code d.head = 0 ∧ d.code d.clone = 0 ∧ ∃ message,
      ((d.run version).result k).2.commands = k.commands ++ d.issued message ∧
      ∀ halt, ((d.run version).result k).1 = .error halt →
        ∃ stage ∈ d.committing message ++ [d.required d.push], stage.goesOn = false := by
  obtain ⟨trace, hcommands, -, hok⟩ := follows_prepare (d := d) version k
  rw [h] at hcommands hok
  obtain ⟨rfl, hgo⟩ := hok r rfl
  obtain ⟨hhead, hclone⟩ : d.code d.head = 0 ∧ d.code d.clone = 0 := by
    simpa [required] using hgo
  obtain ⟨hcarried, herror⟩ := carries_conclude (d := d) r.1.text r.2 k'
  rw [run_eq, Job.bind_of_ok h]
  refine ⟨hhead, hclone, _, ?_, herror⟩
  rw [hcarried, hcommands, List.append_assoc]
  rfl

/-- What the commands of a deployment keep to. -/
structure PushGuarded (d : Deployment) (version message : String) (k : Desk)
    (trace : List Command) : Prop where
  order : trace <+: d.plan message
  once : trace.countP Command.isPush ≤ 1
  pushed_iff : d.push ∈ trace ↔ ∃ k' errors, d.Writes version k k' ∧
    ((Site.check d.shell d.checkout).result k').1 = .ok errors ∧
    (d.branch ≠ "dev" → errors = []) ∧
    d.code d.add = 0 ∧ d.code d.diff ≠ 0 ∧ d.code (d.commit message) = 0
  complete : d.push ∈ trace → trace = d.plan message ∧ d.code d.head = 0 ∧ d.code d.clone = 0
  /-- A site that could not be looked at has not been checked. -/
  unchecked : ∀ reason, d.shell.preview = .unable reason → d.branch ≠ "dev" → d.push ∉ trace
  /-- If a push was tried, nothing but that can have failed. -/
  failed : ∀ halt, ((d.run version).result k).1 = .error halt → d.push ∈ trace → d.code d.push ≠ 0

theorem countP_isPush_le {message : String} {trace : List Command} (h : trace <+: d.plan message) :
    trace.countP Command.isPush ≤ 1 := by
  have hplan : (d.plan message).countP Command.isPush = 1 := by
    simp [plan, Command.isPush, head, clone, add, diff, commit, push, git, Shell.cloneCommand,
      Site.previewCommand]
  rw [← hplan]
  exact h.sublist.countP_le

theorem pushGuarded_of_error {version : String} {halt : Halt} {k k' : Desk} {trace : List Command}
    (hprepare : (d.prepare version).result k = (.error halt, k'))
    (hpre : trace <+: [d.head, d.clone]) : d.PushGuarded version "" k trace := by
  have horder : trace <+: d.plan "" := hpre.trans (List.prefix_append _ _)
  have hnone : d.push ∉ trace := fun h => push_not_mem_preparing (hpre.subset h)
  refine ⟨horder, countP_isPush_le horder, iff_of_false hnone ?_, fun h => absurd h hnone,
    fun _ _ _ => hnone, fun _ _ h => absurd h hnone⟩
  rintro ⟨k₁, -, hwrites, -⟩
  obtain ⟨r, hr⟩ := hwrites.prepare_eq
  rw [hprepare] at hr
  cases hr

theorem pushGuarded_of_ok {version message : String} {r : Label × String} {k k' : Desk}
    (hprepare : (d.prepare version).result k = (.ok r, k')) (hhead : d.code d.head = 0)
    (hclone : d.code d.clone = 0)
    (herror : ∀ halt, ((d.run version).result k).1 = .error halt →
      ∃ stage ∈ d.committing message ++ [d.required d.push], stage.goesOn = false) :
    d.PushGuarded version message k (d.issued message) := by
  have horder : d.issued message <+: d.plan message := issued_isPrefix message
  refine ⟨horder, countP_isPush_le horder, ?_, fun h => ⟨issued_eq_plan h, hhead, hclone⟩,
    fun reason hreason hdev h => ?_, fun halt hhalt h => ?_⟩
  · rw [push_mem_issued, goesOn_committing]
    simp only [Site.check_result]
    constructor
    · rintro ⟨⟨errors, hcheck, hnone⟩, hcodes⟩
      exact ⟨k', errors, prepare_eq_ok hprepare, hcheck, hnone, hcodes⟩
    · rintro ⟨_, errors, -, hcheck, hnone, hcodes⟩
      exact ⟨⟨errors, hcheck, hnone⟩, hcodes⟩
  · obtain ⟨errors, hcheck, hnone⟩ := (goesOn_committing.mp (push_mem_issued.mp h)).1
    rw [hnone hdev] at hcheck
    simp [Site.problems, hreason] at hcheck
  · -- All stages before the push were gone on with, so the one that was not is the push.
    obtain ⟨stage, hstage, hstop⟩ := herror halt hhalt
    rcases List.mem_append.mp hstage with hbefore | hlast
    · rw [push_mem_issued.mp h stage hbefore] at hstop
      cases hstop
    · rw [List.mem_singleton.mp hlast] at hstop
      exact of_decide_eq_false hstop

/-- A deployment pushes at most once, and that last of all. It does so if and only if it has a
complete working tree, in which no errors were found unless it is a draft, and there were changes
and they have been committed. -/
theorem pushes_only_checked_commits (d : Deployment) (version : String) (k : Desk) :
    ∃ trace message, ((d.run version).result k).2.commands = k.commands ++ trace ∧
      d.PushGuarded version message k trace := by
  rcases hprepare : (d.prepare version).result k with ⟨halt | r, k'⟩
  · obtain ⟨trace, hcommands, hpre⟩ := run_of_error hprepare
    exact ⟨trace, "", hcommands, pushGuarded_of_error hprepare hpre⟩
  · obtain ⟨hhead, hclone, message, hcommands, herror⟩ := run_of_ok hprepare
    exact ⟨_, message, hcommands, pushGuarded_of_ok hprepare hhead hclone herror⟩

end Deploy.Deployment

end DocSite
