/-
# MarketPilot.Drill.Containment — what the drill leaves alone

Every request of a drill is about its own two containers, its own two volumes and the directory it was given
(`Contained`), and it removes a container or a volume only right after that resource answered with the
drill's own label.  A report says that the drill passed only if nothing of it is left: each of the four
resources was inspected, was not found, and nothing was created after that.
-/
import MarketPilot.Drill.RestoreDrill

namespace MarketPilot.Drill

open MarketPilot.Python MarketPilot.Foundation

/-! ## The drill's own -/

/-- The containers of a drill. -/
def DrillResources.containers (resources : DrillResources) : List String :=
  [resources.sourceContainer, resources.restoreContainer]

/-- The volumes of a drill. -/
def DrillResources.volumes (resources : DrillResources) : List String :=
  [resources.sourceVolume, resources.restoreVolume]

/-- The resources of a kind. -/
def DrillResources.names (resources : DrillResources) : ResourceKind → List String
  | .container => resources.containers
  | .volume => resources.volumes

/-- A command of the container runtime. -/
abbrev dockerCommand (args : List String) (input : Option String) : Request := .run ("docker" :: args) input

section Contained

variable (resources : DrillResources) (arguments : DrillArguments)

/-- The requests about the drill's own resources, and about the directories it was given. -/
inductive Contained (given : String → Prop) : Request → Prop
  | version : Contained given (dockerCommand ["version", "--format", "\x7b\x7b.Server.Version\x7d\x7d"] none)
  | createVolume {volume : String} (own : volume ∈ resources.volumes) :
    Contained given (dockerCommand (volumeArgs resources volume) none)
  | startSource :
    Contained given (dockerCommand (startArgs resources resources.sourceContainer resources.sourceVolume
      arguments.image (some arguments.migration)) none)
  | startRestore :
    Contained given (dockerCommand (startArgs resources resources.restoreContainer resources.restoreVolume
      arguments.image none) none)
  | exec {container : String} {command : List String} (own : container ∈ resources.containers) :
    Contained given (dockerCommand ("exec" :: container :: command) none)
  | psql {container sql : String} (own : container ∈ resources.containers) :
    Contained given (dockerCommand (psqlArgs container) (some sql))
  | copyOut {directory : String} (own : given directory) :
    Contained given (dockerCommand (copyOutArgs resources (directory ++ "/marketpilot.dump")) none)
  | copyIn {directory : String} (own : given directory) :
    Contained given (dockerCommand (copyInArgs resources (directory ++ "/marketpilot.dump")) none)
  | inspectLabel {kind : ResourceKind} {name : String} (own : name ∈ resources.names kind) :
    Contained given (dockerCommand (inspectLabelArgs kind name) none)
  | inspect {kind : ResourceKind} {name : String} (own : name ∈ resources.names kind) :
    Contained given (dockerCommand (inspectArgs kind name) none)
  | remove {kind : ResourceKind} {name : String} (own : name ∈ resources.names kind) :
    Contained given (dockerCommand (removeArgs kind name) none)
  | isFile : Contained given (.isFile arguments.migration)
  | temporaryDirectory : Contained given .temporaryDirectory
  | removeDirectory {directory : String} (own : given directory) : Contained given (.removeDirectory directory)

variable {resources arguments}

theorem Contained.mono {given given' : String → Prop} (h : ∀ directory, given directory → given' directory)
    {request : Request} (hcontained : Contained resources arguments given request) :
    Contained resources arguments given' request := by
  cases hcontained with
  | version => exact .version
  | createVolume own => exact .createVolume own
  | startSource => exact .startSource
  | startRestore => exact .startRestore
  | exec own => exact .exec own
  | psql own => exact .psql own
  | copyOut own => exact .copyOut (h _ own)
  | copyIn own => exact .copyIn (h _ own)
  | inspectLabel own => exact .inspectLabel own
  | inspect own => exact .inspect own
  | remove own => exact .remove own
  | isFile => exact .isFile
  | temporaryDirectory => exact .temporaryDirectory
  | removeDirectory own => exact .removeDirectory (h _ own)

end Contained

/-! ## Requests that remove and requests that create -/

/-- The command removes a container or a volume. -/
def Removes : Request → Prop
  | .run args _ => args.take 3 = ["docker", "container", "rm"] ∨ args.take 3 = ["docker", "volume", "rm"]
  | _ => False

/-- The command creates a container or a volume. -/
def Creates : Request → Prop
  | .run args _ => args.take 2 = ["docker", "run"] ∨ args.take 3 = ["docker", "volume", "create"]
  | _ => False

/-- A command that is about neither containers nor volumes as such removes none. -/
theorem not_removes {command : String} {args : List String} {input : Option String}
    (hcontainer : command ≠ "container") (hvolume : command ≠ "volume") :
    ¬ Removes (dockerCommand (command :: args) input) := by
  rintro (h | h)
  · exact hcontainer (List.cons.inj (List.cons.inj h).2).1
  · exact hvolume (List.cons.inj (List.cons.inj h).2).1

/-- A command whose second word is not `rm` removes none. -/
theorem not_removes_of_ne {command word : String} {args : List String} {input : Option String}
    (hword : word ≠ "rm") : ¬ Removes (dockerCommand (command :: word :: args) input) := by
  rintro (h | h)
  · exact hword (List.cons.inj (List.cons.inj (List.cons.inj h).2).2).1
  · exact hword (List.cons.inj (List.cons.inj (List.cons.inj h).2).2).1

theorem not_removes_volumeArgs {resources : DrillResources} {volume : String} :
    ¬ Removes (dockerCommand (volumeArgs resources volume) none) := not_removes_of_ne (by simp)

theorem not_removes_inspectLabelArgs {kind : ResourceKind} {name : String} :
    ¬ Removes (dockerCommand (inspectLabelArgs kind name) none) := not_removes_of_ne (by simp)

theorem not_removes_inspectArgs {kind : ResourceKind} {name : String} :
    ¬ Removes (dockerCommand (inspectArgs kind name) none) := not_removes_of_ne (by simp)

/-- A command on a resource whose second word is not `create` creates none. -/
theorem not_creates_of_ne {kind : ResourceKind} {word : String} {args : List String} {input : Option String}
    (hword : word ≠ "create") : ¬ Creates (dockerCommand (kind.name :: word :: args) input) := by
  rintro (h | h)
  · have hrun : kind.name = "run" := (List.cons.inj (List.cons.inj h).2).1
    cases kind with
    | container => exact absurd hrun (by simp [ResourceKind.name])
    | volume => exact absurd hrun (by simp [ResourceKind.name])
  · exact hword (List.cons.inj (List.cons.inj (List.cons.inj h).2).2).1

theorem not_creates_inspectLabelArgs {kind : ResourceKind} {name : String} :
    ¬ Creates (dockerCommand (inspectLabelArgs kind name) none) := not_creates_of_ne (by simp)

theorem not_creates_inspectArgs {kind : ResourceKind} {name : String} :
    ¬ Creates (dockerCommand (inspectArgs kind name) none) := not_creates_of_ne (by simp)

theorem not_creates_removeArgs {kind : ResourceKind} {name : String} :
    ¬ Creates (dockerCommand (removeArgs kind name) none) := by
  have hword : "rm" ≠ "create" := by simp
  cases kind with
  | container => exact @not_creates_of_ne .container _ ["--force", name] none hword
  | volume => exact @not_creates_of_ne .volume _ [name] none hword

/-! ## Exchanges that were kept to the drill's own -/

section Kept

variable (resources : DrillResources) (arguments : DrillArguments)

/-- The resource answered with the drill's label. -/
def Labelled (kind : ResourceKind) (name : String) : Exchange Answer → Prop
  | ⟨.run args none, .ok completed⟩ => args = "docker" :: inspectLabelArgs kind name ∧
    completed.returncode = 0 ∧
      strip completed.stdout = resources.runId
  | _ => False

/-- The first exchange permits the second, which removes the resource that carries the label. -/
def PermitsRemoval (y x : Exchange Answer) : Prop :=
  ∃ kind name, Labelled resources kind name y ∧ x.question = dockerCommand (removeArgs kind name) none

/-- What holds of every exchange with the host, and of the removals among them. -/
def Kept (given : String → Prop) (said : List (Exchange Answer)) : Prop :=
  (∀ x ∈ said, Contained resources arguments given x.question) ∧
    Permitted (fun x => Removes x.question) (PermitsRemoval resources) said

variable {resources arguments} {given : String → Prop}

theorem joins_kept : Joins (Kept resources arguments given) :=
  (Joins.forall_mem _).and joins_permitted

theorem Kept.mono {given' : String → Prop} (h : ∀ directory, given directory → given' directory)
    {said : List (Exchange Answer)} (hkept : Kept resources arguments given said) :
    Kept resources arguments given' said :=
  ⟨fun x hx => (hkept.1 x hx).mono h, hkept.2⟩

theorem kept_one {x : Exchange Answer} (hcontained : Contained resources arguments given x.question)
    (hremoves : ¬ Removes x.question) : Kept resources arguments given [x] := by
  refine ⟨?_, permitted_of_forall ?_⟩
  · rintro y (_ | ⟨_, ⟨⟩⟩)
    exact hcontained
  · rintro y (_ | ⟨_, ⟨⟩⟩)
    exact hremoves

/-! ## Commands -/

variable {texts : DrillTexts} {respond : Respondent Answer} {args : List String} {input : Option String}
    {check : Bool}
  {container : String}

theorem says_run : Says (run respond args input check) fun r said =>
    ∃ answer : Except HostError CompletedProcess, said = [⟨dockerCommand args input, answer⟩] ∧
      ∀ completed, r = .ok completed → answer = .ok completed := by
  refine Says.bind (R := fun r said => ∃ answer : Except HostError CompletedProcess, r = .ok answer ∧
    said = [⟨dockerCommand args input, answer⟩]) (Says.ask fun answer => ⟨answer, rfl, rfl⟩) ?_ ?_
  · rintro answer said ⟨_, ⟨⟩, rfl⟩
    match answer with
    | .error (.osError strerror) => exact Says.raise ⟨_, rfl, by simp⟩
    | .error (.other exception) => exact Says.raise ⟨_, rfl, by simp⟩
    | .ok completed =>
      refine Says.ite (fun _ => Says.raise ⟨_, rfl, by simp⟩) fun _ => Says.pure ⟨_, rfl, ?_⟩
      rintro _ ⟨⟩
      rfl
  · rintro e said ⟨_, ⟨⟩, -⟩

theorem kept_run (hcontained : Contained resources arguments given (dockerCommand args input))
    (hremoves : ¬ Removes (dockerCommand args input)) :
    Says (run respond args input check) fun _ => Kept resources arguments given := by
  refine says_run.mono ?_
  rintro _ _ ⟨answer, rfl, -⟩
  exact kept_one hcontained hremoves

theorem kept_docker (hcontained : Contained resources arguments given (dockerCommand args none))
    (hremoves : ¬ Removes (dockerCommand args none)) :
    Says (docker respond args check) fun _ => Kept resources arguments given :=
  joins_kept.bind (kept_run hcontained hremoves) fun _ => joins_kept.pure

/-- A command inside one of the drill's containers. -/
theorem kept_exec {command : List String} (own : container ∈ resources.containers) :
    Says (docker respond ("exec" :: container :: command) check) fun _ => Kept resources arguments given :=
  kept_docker (.exec own) (not_removes (by decide) (by decide))

theorem kept_psql {sql : String} (own : container ∈ resources.containers) :
    Says (psql respond container sql check) fun _ => Kept resources arguments given :=
  kept_run (.psql own) (not_removes (by decide) (by decide))

theorem kept_sqlValue {sql : String} (own : container ∈ resources.containers) :
    Says (sqlValue respond container sql) fun _ => Kept resources arguments given :=
  joins_kept.bind (kept_psql own) fun _ => joins_kept.pure

theorem kept_sqlCount {sql : String} (own : container ∈ resources.containers) :
    Says (sqlCount respond container sql) fun _ => Kept resources arguments given :=
  joins_kept.bind (kept_sqlValue own) fun _ => joins_kept.lift

theorem kept_expectDatabaseRejection {sql marker : String} (own : container ∈ resources.containers) :
    Says (expectDatabaseRejection texts respond container sql marker) fun _ => Kept resources arguments given :=
  joins_kept.bind (kept_psql own) fun _ => joins_kept.pure

theorem kept_waitReady (own : container ∈ resources.containers) (attempts : Nat) :
    Says (waitReady respond container attempts) fun _ => Kept resources arguments given := by
  induction attempts with
  | zero => exact joins_kept.raise
  | succ attempts ih =>
    refine joins_kept.bind (kept_run (.exec own) (not_removes (by decide) (by decide))) fun completed => ?_
    show Says (if completed.returncode = 0 then pure () else waitReady respond container attempts) _
    exact Says.ite (fun _ => joins_kept.pure) fun _ => ih

theorem kept_snapshot (own : container ∈ resources.containers) :
    Says (snapshot texts respond container) fun _ => Kept resources arguments given :=
  joins_kept.collect fun _ _ => joins_kept.bind (kept_sqlValue own) fun _ => joins_kept.pure

theorem kept_verifyRestoredDatabase (own : container ∈ resources.containers) :
    Says (verifyRestoredDatabase texts respond container) fun _ => Kept resources arguments given := by
  refine joins_kept.bind (kept_sqlValue own) fun _ => ?_
  refine joins_kept.bind (kept_sqlCount own) fun _ => ?_
  refine joins_kept.bind (kept_sqlCount own) fun _ => ?_
  refine joins_kept.bind (kept_sqlValue own) fun _ => ?_
  refine joins_kept.bind joins_kept.lift fun ⟨_, _⟩ => ?_
  refine joins_kept.bind (kept_expectDatabaseRejection own) fun _ => ?_
  refine joins_kept.bind (kept_expectDatabaseRejection own) fun _ => ?_
  refine joins_kept.bind (kept_expectDatabaseRejection own) fun _ => ?_
  exact joins_kept.bind (kept_sqlCount own) fun _ => joins_kept.pure

/-! ## Cleaning up -/

variable {kind : ResourceKind} {name : String}

/-- The resource was inspected and was not found. -/
def Absent (kind : ResourceKind) (name : String) : Exchange Answer → Prop
  | ⟨.run args none, .ok completed⟩ => args = "docker" :: inspectArgs kind name ∧ completed.returncode ≠ 0
  | _ => False

/-- The resource was not found, and nothing was created after that. -/
def Gone (kind : ResourceKind) (name : String) (said : List (Exchange Answer)) : Prop :=
  ∃ before x after, said = before ++ x :: after ∧ Absent kind name x ∧ ∀ y ∈ after, ¬ Creates y.question

theorem says_resourceHasLabel : Says (resourceHasLabel respond resources kind name) fun r said =>
    ∃ answer : Except HostError CompletedProcess,
      said = [⟨dockerCommand (inspectLabelArgs kind name) none, answer⟩] ∧
      (r = .ok true →
        Labelled resources kind name ⟨dockerCommand (inspectLabelArgs kind name) none, answer⟩) := by
  refine says_run.bind ?_ ?_
  · rintro completed _ ⟨answer, rfl, hanswer⟩
    obtain rfl := hanswer completed rfl
    refine Says.pure ⟨_, rfl, fun hlabel => ⟨rfl, ?_⟩⟩
    simpa using hlabel
  · rintro e _ ⟨answer, rfl, -⟩
    exact ⟨answer, rfl, by simp⟩

theorem says_resourceExists : Says (resourceExists respond kind name) fun r said =>
    ∃ x : Exchange Answer, said = [x] ∧ x.question = dockerCommand (inspectArgs kind name) none ∧
      (r = .ok false → Absent kind name x) := by
  refine says_run.bind ?_ ?_
  · rintro completed _ ⟨answer, rfl, hanswer⟩
    obtain rfl := hanswer completed rfl
    refine Says.pure ⟨_, rfl, rfl, fun hgone => ⟨rfl, ?_⟩⟩
    simpa using hgone
  · rintro e _ ⟨answer, rfl, -⟩
    exact ⟨_, rfl, rfl, by simp⟩

/-- The exchanges of a cleanup: the drill's own, and none that creates. -/
def Cleaning (resources : DrillResources) (arguments : DrillArguments) (given : String → Prop)
    (said : List (Exchange Answer)) : Prop :=
  Kept resources arguments given said ∧ ∀ x ∈ said, ¬ Creates x.question

theorem joins_cleaning : Joins (Cleaning resources arguments given) := joins_kept.and (Joins.forall_mem _)

theorem Gone.append {said rest : List (Exchange Answer)} (h : Gone kind name said)
    (hrest : ∀ x ∈ rest, ¬ Creates x.question) : Gone kind name (said ++ rest) := by
  rcases h with ⟨before, x, after, rfl, habsent, hafter⟩
  refine ⟨before, x, after ++ rest, by rw [List.append_assoc, List.cons_append], habsent, ?_⟩
  exact fun y hy => (List.mem_append.mp hy).elim (hafter y) (hrest y)

theorem Gone.prepend (earlier : List (Exchange Answer)) {said : List (Exchange Answer)}
    (h : Gone kind name said) :
    Gone kind name (earlier ++ said) := by
  rcases h with ⟨before, x, after, rfl, habsent, hafter⟩
  exact ⟨earlier ++ before, x, after, by rw [List.append_assoc], habsent, hafter⟩

/-- A cleanup of the named resources: if it reports success, so did what came before, and none of them is
left. -/
def Swept (resources : DrillResources) (arguments : DrillArguments) (given : String → Prop)
    (kind : ResourceKind) (names : List String) (cleaned : Bool) (r : Except DrillException Bool)
    (said : List (Exchange Answer)) : Prop :=
  Cleaning resources arguments given said ∧
    (r = .ok true → cleaned = true ∧ ∀ name ∈ names, Gone kind name said)

theorem Swept.prepend {names : List String} {cleaned : Bool} {r : Except DrillException Bool}
    {earlier said : List (Exchange Answer)} (hearlier : Cleaning resources arguments given earlier)
    (h : Swept resources arguments given kind names cleaned r said) :
    Swept resources arguments given kind names cleaned r (earlier ++ said) :=
  ⟨joins_cleaning.append hearlier h.1,
    fun hok => ⟨(h.2 hok).1, fun n hn => ((h.2 hok).2 n hn).prepend earlier⟩⟩

/-- Asking whether the resource is left, at the end of its turn. -/
theorem says_left (own : name ∈ resources.names kind) {cleaned : Bool} :
    Says (do
      let left ← resourceExists respond kind name
      pure (cleaned && !left)) (Swept resources arguments given kind [name] cleaned) := by
  have hcleaning : ∀ x : Exchange Answer, x.question = dockerCommand (inspectArgs kind name) none →
      Cleaning resources arguments given [x] := by
    intro x hx
    refine ⟨kept_one (by rw [hx]; exact .inspect own) (by rw [hx]; exact not_removes_inspectArgs), ?_⟩
    rintro y (_ | ⟨_, ⟨⟩⟩)
    rw [hx]
    exact not_creates_inspectArgs
  refine says_resourceExists.bind ?_ ?_
  · rintro left _ ⟨x, rfl, hx, habsent⟩
    refine Says.pure ⟨hcleaning x hx, fun hok => ?_⟩
    rcases (by simpa using hok : cleaned = true ∧ left = false) with ⟨hcleaned, rfl⟩
    refine ⟨hcleaned, ?_⟩
    rintro n (_ | ⟨_, ⟨⟩⟩)
    exact ⟨[], x, [], rfl, habsent rfl, by simp⟩
  · rintro e _ ⟨x, rfl, hx, -⟩
    exact ⟨hcleaning x hx, by simp⟩

/-- One turn: if the resource carries the label, the very next request removes it. -/
theorem says_cleanupResource (own : name ∈ resources.names kind) {cleaned : Bool} :
    Says (cleanupResource respond resources kind cleaned name)
      (Swept resources arguments given kind [name] cleaned) := by
  have hlabel : ∀ answer, Cleaning resources arguments given
      [⟨dockerCommand (inspectLabelArgs kind name) none, answer⟩] := by
    refine fun answer => ⟨kept_one (.inspectLabel own) not_removes_inspectLabelArgs, ?_⟩
    rintro y (_ | ⟨_, ⟨⟩⟩)
    exact not_creates_inspectLabelArgs
  refine says_resourceHasLabel.bind ?_ ?_
  · rintro labelled _ ⟨answer, rfl, hlabelled⟩
    cases labelled with
    | false => exact (says_left own).mono fun _ _ hswept => hswept.prepend (hlabel answer)
    -- the label was answered, so the removal that follows is permitted
    | true =>
      have hremoval : ∀ x : Exchange Answer, x.question = dockerCommand (removeArgs kind name) none →
          Cleaning resources arguments given
            [⟨dockerCommand (inspectLabelArgs kind name) none, answer⟩, x] := by
        intro x hx
        refine ⟨⟨?_, permitted_pair not_removes_inspectLabelArgs ⟨kind, name, hlabelled rfl, hx⟩⟩, ?_⟩
        · rintro y (_ | ⟨_, _ | ⟨_, ⟨⟩⟩⟩)
          · exact .inspectLabel own
          · rw [hx]
            exact .remove own
        · rintro y (_ | ⟨_, _ | ⟨_, ⟨⟩⟩⟩)
          · exact not_creates_inspectLabelArgs
          · rw [hx]
            exact not_creates_removeArgs
      refine Says.bind (R := fun _ said => ∃ x : Exchange Answer, said = [x] ∧
        x.question = dockerCommand (removeArgs kind name) none) ?_ ?_ ?_
      · refine says_run.bind ?_ ?_
        · rintro completed _ ⟨removed, rfl, -⟩
          exact Says.pure ⟨_, rfl, rfl⟩
        · rintro e _ ⟨removed, rfl, -⟩
          exact ⟨_, rfl, rfl⟩
      · rintro _ _ ⟨x, rfl, hx⟩
        refine Says.mono (P := Swept resources arguments given kind [name] cleaned) (says_left own)
          fun _ _ hswept => ?_
        have hboth := hswept.prepend (hremoval x hx)
        exact hboth
      · rintro e _ ⟨x, rfl, hx⟩
        exact ⟨hremoval x hx, by simp⟩
  · rintro e _ ⟨answer, rfl, -⟩
    exact ⟨hlabel answer, by simp⟩

theorem says_cleanupResources {names : List String} (own : ∀ name ∈ names, name ∈ resources.names kind) :
    ∀ cleaned, Says (names.foldlM (cleanupResource respond resources kind) cleaned)
      (Swept resources arguments given kind names cleaned) := by
  induction names with
  | nil =>
    exact fun cleaned => Says.pure ⟨joins_cleaning.nil, fun hok => ⟨by simpa using hok, by simp⟩⟩
  | cons name names ih =>
    intro cleaned
    rw [List.foldlM_cons]
    refine Says.bind (R := Swept resources arguments given kind [name] cleaned)
      (says_cleanupResource (own name List.mem_cons_self)) ?_ ?_
    · rintro cleaned' said ⟨hcleaning, hgone⟩
      refine (ih (fun n hn => own n (List.mem_cons_of_mem name hn)) cleaned').mono ?_
      rintro r more ⟨hmore, hmoreGone⟩
      refine ⟨joins_cleaning.append hcleaning hmore, fun hok => ?_⟩
      rcases hmoreGone hok with ⟨rfl, hnames⟩
      refine ⟨(hgone rfl).1, ?_⟩
      rintro n (_ | ⟨_, hn⟩)
      · exact ((hgone rfl).2 name List.mem_cons_self).append hmore.2
      · exact (hnames n hn).prepend said
    · rintro e said ⟨hcleaning, -⟩
      exact ⟨hcleaning, by simp⟩

/-- A cleanup that reports success left nothing of the drill behind. -/
theorem says_cleanup : Says (cleanup respond resources) fun r said =>
    Cleaning resources arguments given said ∧
      (r = .ok true → ∀ kind, ∀ name ∈ resources.names kind, Gone kind name said) := by
  refine Says.bind (R := Swept resources arguments given .container resources.containers true)
    (says_cleanupResources (fun _ h => h) true) ?_ ?_
  · rintro cleaned said ⟨hcleaning, hgone⟩
    refine Says.mono (P := Swept resources arguments given .volume resources.volumes cleaned)
      (says_cleanupResources (fun _ h => h) cleaned) ?_
    rintro r more ⟨hmore, hmoreGone⟩
    refine ⟨joins_cleaning.append hcleaning hmore, fun hok => ?_⟩
    rcases hmoreGone hok with ⟨rfl, hvolumes⟩
    intro kind name hname
    cases kind with
    | container => exact ((hgone rfl).2 name hname).append hmore.2
    | volume => exact (hvolumes name hname).prepend said
  · rintro e said ⟨hcleaning, -⟩
    exact ⟨hcleaning, by simp⟩

/-! ## The body of the drill -/

theorem kept_createVolume {volume : String} (own : volume ∈ resources.volumes) :
    Says (createVolume respond resources volume) fun _ => Kept resources arguments given := by
  refine joins_kept.bind (kept_docker (.createVolume own) not_removes_volumeArgs) fun _ => ?_
  refine joins_kept.bind ?_ fun labelled => ?_
  · exact joins_kept.bind (kept_run (Contained.inspectLabel own) not_removes_inspectLabelArgs)
      fun _ => joins_kept.pure
  · exact Says.ite (fun _ => joins_kept.raise) fun _ => joins_kept.pure

theorem source_mem : resources.sourceContainer ∈ resources.containers := List.mem_cons_self

theorem restore_mem : resources.restoreContainer ∈ resources.containers :=
  List.mem_cons_of_mem _ List.mem_cons_self

theorem kept_transfer {directory : String} :
    Says (transfer respond resources arguments.image directory) fun _ =>
    Kept resources arguments (· = directory) := by
  refine joins_kept.bind (kept_exec source_mem) fun _ => ?_
  refine joins_kept.bind (kept_docker (.copyOut rfl) (not_removes (by decide) (by decide))) fun _ => ?_
  refine joins_kept.bind ?_ fun _ => ?_
  · exact joins_kept.bind (kept_docker .startRestore (not_removes (by decide) (by decide))) fun _ =>
    joins_kept.pure
  refine joins_kept.bind (kept_waitReady restore_mem 60) fun _ => ?_
  refine joins_kept.bind (kept_docker (.copyIn rfl) (not_removes (by decide) (by decide))) fun _ => ?_
  exact joins_kept.bind (kept_exec restore_mem) fun _ => joins_kept.pure

/-- The directory was given in answer to a request for a temporary one. -/
def GivenIn (said : List (Exchange Answer)) (directory : String) : Prop :=
  ∃ x ∈ said, x = ⟨.temporaryDirectory, (.ok directory : Except HostError String)⟩

/-- The exchanges were kept to the drill's own, and to the directories given in them. -/
def Within (resources : DrillResources) (arguments : DrillArguments) (said : List (Exchange Answer)) : Prop :=
  Kept resources arguments (GivenIn said) said

theorem joins_within : Joins (Within resources arguments) := by
  refine ⟨joins_kept.nil, fun {xs ys} hxs hys => joins_kept.append (hxs.mono ?_) (hys.mono ?_)⟩
  · exact fun _ ⟨x, hx, hgiven⟩ => ⟨x, List.mem_append_left ys hx, hgiven⟩
  · exact fun _ ⟨x, hx, hgiven⟩ => ⟨x, List.mem_append_right xs hx, hgiven⟩

/-- What keeps to the drill's own without a directory. -/
theorem Kept.within {said : List (Exchange Answer)} (h : Kept resources arguments (fun _ => False) said) :
    Within resources arguments said := h.mono fun _ => False.elim

theorem within_of_kept {α : Type} {m : Action α}
    (h : Says m fun _ => Kept resources arguments fun _ => False) :
    Says m fun _ => Within resources arguments :=
  h.mono fun _ _ => Kept.within

theorem within_transferInDirectory : Says (transferInDirectory respond resources arguments.image) fun _ =>
    Within resources arguments := by
  refine Says.bind (R := fun r said => ∃ answer : Except HostError String, r = .ok answer ∧
    said = [⟨.temporaryDirectory, answer⟩]) (Says.ask fun answer => ⟨answer, rfl, rfl⟩) ?_ ?_
  · rintro answer _ ⟨_, ⟨⟩, rfl⟩
    have hask : Kept resources arguments (fun _ => False) [⟨.temporaryDirectory, answer⟩] :=
      kept_one .temporaryDirectory (by rintro ⟨⟩)
    cases answer with
    | error e => exact Says.raise hask.within
    | ok directory =>
      -- the rest of the body uses the directory, which the first exchange gave
      have hrest : Says (do
          let outcome ← Eff.attempt (transfer respond resources arguments.image directory)
          hosted (← ask respond (.removeDirectory directory))
          Eff.lift outcome) fun _ => Kept resources arguments (· = directory) := by
        refine joins_kept.bind (Says.attempt kept_transfer) fun _ => ?_
        refine joins_kept.bind (Says.ask fun _ => kept_one (.removeDirectory rfl) (by rintro ⟨⟩)) fun _ => ?_
        exact joins_kept.bind joins_kept.lift fun _ => joins_kept.lift
      refine hrest.mono fun _ more hmore => ?_
      refine joins_kept.append (hask.mono fun _ => False.elim) (hmore.mono ?_)
      rintro _ rfl
      exact ⟨_, List.mem_cons_self, rfl⟩
  · rintro e _ ⟨_, ⟨⟩, -⟩

theorem within_compare : Says (compare texts respond resources arguments.image arguments.migration) fun _ =>
    Within resources arguments := by
  refine joins_within.bind
    (within_of_kept (kept_run .version (not_removes (by decide) (by decide)))) fun _ => ?_
  refine joins_within.bind (within_of_kept (kept_createVolume List.mem_cons_self)) fun _ => ?_
  refine joins_within.bind
    (within_of_kept (kept_createVolume (List.mem_cons_of_mem _ List.mem_cons_self))) fun _ => ?_
  refine joins_within.bind (within_of_kept ?_) fun _ => ?_
  · exact joins_kept.bind (kept_docker .startSource (not_removes (by decide) (by decide))) fun _ =>
    joins_kept.pure
  refine joins_within.bind (within_of_kept (kept_waitReady source_mem 60)) fun _ => ?_
  refine joins_within.bind (within_of_kept (kept_psql source_mem)) fun _ => ?_
  refine joins_within.bind (within_of_kept (kept_snapshot source_mem)) fun _ => ?_
  refine joins_within.bind within_transferInDirectory fun _ => ?_
  refine joins_within.bind (within_of_kept (kept_snapshot restore_mem)) fun _ => ?_
  exact joins_within.bind (within_of_kept (kept_verifyRestoredDatabase restore_mem)) fun _ => joins_within.pure

/-! ## The report -/

/-- What a report that says the drill passed rests on: every check held, the two databases had the same
hashes, and of the drill nothing is left. -/
structure Earned (resources : DrillResources) (report : DrillReport)
    (before : List (Exchange Answer)) : Prop where
  verified : ∃ evidence, report.evidence = some evidence ∧ evidence.verification.checks.all = true ∧
    evidence.sourceHashes = evidence.restoredHashes
  gone : ∀ kind, ∀ name ∈ resources.names kind, Gone kind name before

theorem reportOf_pass {plan : DrillPlan} {evidence : Option Evidence} {cleaned : Bool} :
    (reportOf plan evidence cleaned).status = .pass ↔
      (∃ e, evidence = some e ∧ e.allChecks = true) ∧ cleaned = true := by
  unfold reportOf
  rw [← Option.any_eq_true]
  by_cases h : (evidence.any Evidence.allChecks && cleaned) = true
  · rw [if_pos h]
    simpa using h
  · rw [if_neg h]
    simpa using h

/-- The drill stopped without a report, or its last request wrote one; it returns just the report that says it
passed, if it could be written. -/
def Concluded (resources : DrillResources) (arguments : DrillArguments) (r : Except DrillException DrillReport)
    (said : List (Exchange Answer)) : Prop :=
  (Within resources arguments said ∧ ∀ report, r ≠ .ok report) ∨
    ∃ before report, ∃ answer : Except HostError Unit,
      said = before ++ [⟨.writeReport arguments.report report, answer⟩] ∧ Within resources arguments before ∧
      (report.status = .pass → Earned resources report before) ∧
      ∀ returned, r = .ok returned ↔ returned = report ∧ report.status = .pass ∧ answer = .ok ()

theorem says_conclude {plan : DrillPlan} {outcome : Except DrillException Evidence} {cleaned : Bool}
    {before : List (Exchange Answer)} (hbefore : Within resources arguments before)
    (hgone : cleaned = true → ∀ kind, ∀ name ∈ resources.names kind, Gone kind name before) :
    Says (conclude respond arguments.report (reportOf plan outcome.toOption cleaned) outcome cleaned)
      fun r said =>
      Concluded resources arguments r (before ++ said) := by
  have hearned : (reportOf plan outcome.toOption cleaned).status = .pass →
      Earned resources (reportOf plan outcome.toOption cleaned) before := by
    intro hpass
    rcases reportOf_pass.mp hpass with ⟨⟨e, he, hall⟩, hcleaned⟩
    rcases (by simpa [Evidence.allChecks, Evidence.hashesMatch] using hall :
      e.verification.checks.all = true ∧ e.sourceHashes = e.restoredHashes) with ⟨hchecks, hhashes⟩
    exact ⟨⟨e, he, hchecks, hhashes⟩, hgone hcleaned⟩
  have hwritten : ∀ (answer : Except HostError Unit) (r : Except DrillException DrillReport),
      (∀ returned, r = .ok returned ↔ returned = reportOf plan outcome.toOption cleaned ∧
        (reportOf plan outcome.toOption cleaned).status = .pass ∧ answer = .ok ()) →
      Concluded resources arguments r
        (before ++ [⟨.writeReport arguments.report (reportOf plan outcome.toOption cleaned), answer⟩]) :=
    fun answer r hr => Or.inr ⟨before, _, answer, rfl, hbefore, hearned, hr⟩
  -- the report is written first; what is then raised does not change it
  refine Says.bind (R := fun r said => ∃ answer : Except HostError Unit, r = .ok answer ∧
    said = [⟨.writeReport arguments.report (reportOf plan outcome.toOption cleaned), answer⟩])
    (Says.ask fun answer => ⟨answer, rfl, rfl⟩) ?_ ?_
  · rintro answer _ ⟨_, ⟨⟩, rfl⟩
    cases answer with
    | error e => exact Says.raise (hwritten _ _ (by simp))
    | ok _ =>
      show Says (if cleaned = false then drillError "one or more labeled temporary resources were not cleaned"
        else do
          let evidence ← Eff.lift outcome
          if evidence.allChecks = false then
            drillError "restored database did not satisfy every verification check"
          else pure (reportOf plan outcome.toOption cleaned)) _
      refine Says.ite (fun hcleaned => Says.raise (hwritten _ _ ?_)) fun hcleaned => ?_
      · simp [reportOf_pass, hcleaned]
      cases outcome with
      | error e => exact Says.raise (hwritten _ _ (by simp [reportOf_pass, Except.toOption]))
      | ok evidence =>
        refine Says.ite (fun hall => Says.raise (hwritten _ _ ?_)) fun hall => Says.pure (hwritten _ _ ?_)
        · simp [reportOf_pass, Except.toOption, hall]
        · have hpass : (reportOf plan (some evidence) cleaned).status = .pass :=
            reportOf_pass.mpr ⟨⟨evidence, rfl, by simpa using hall⟩, by simpa using hcleaned⟩
          intro returned
          show Except.ok (reportOf plan (some evidence) cleaned) = Except.ok returned ↔ _
          constructor
          · rintro ⟨⟩
            exact ⟨rfl, hpass, rfl⟩
          · rintro ⟨rfl, -, -⟩
            rfl
  · rintro e _ ⟨_, ⟨⟩, -⟩

theorem says_runRestoreDrill {runId : String} :
    Says (runRestoreDrill texts respond runId arguments.image arguments.migration arguments.report)
      (Concluded (DrillResources.create runId) arguments) := by
  refine Says.bind (R := fun r said => ∃ answer : Except HostError Bool, r = .ok answer ∧
    said = [⟨.isFile arguments.migration, answer⟩]) (Says.ask fun answer => ⟨answer, rfl, rfl⟩) ?_ ?_
  · rintro answer _ ⟨_, ⟨⟩, rfl⟩
    have hask : Within (DrillResources.create runId) arguments [⟨.isFile arguments.migration, answer⟩] :=
      (kept_one .isFile (by rintro ⟨⟩)).within
    cases answer with
    | error e => exact Says.raise (Or.inl ⟨hask, by simp⟩)
    | ok found =>
      refine Says.ite (fun _ => Says.raise (Or.inl ⟨hask, by simp⟩)) fun _ => ?_
      refine Says.bind (R := fun _ => Within (DrillResources.create runId) arguments)
        (Says.attempt within_compare) ?_ ?_
      · intro outcome body hbody
        refine Says.bind (R := fun r said =>
          Cleaning (DrillResources.create runId) arguments (fun _ => False) said ∧
          (r = .ok true → ∀ kind, ∀ name ∈ (DrillResources.create runId).names kind, Gone kind name said))
          says_cleanup ?_ ?_
        · rintro cleaned sweep ⟨hsweep, hgone⟩
          have hbefore := joins_within.append hask (joins_within.append hbody hsweep.1.within)
          refine (says_conclude hbefore ?_).mono fun _ _ hconcluded => ?_
          · rintro rfl kind name hname
            exact ((hgone rfl kind name hname).prepend body).prepend _
          · simpa only [List.append_assoc] using hconcluded
        · rintro e sweep ⟨hsweep, -⟩
          exact Or.inl ⟨joins_within.append hask (joins_within.append hbody hsweep.1.within), by simp⟩
      · intro e body hbody
        exact Or.inl ⟨joins_within.append hask hbody, by simp⟩
  · rintro e _ ⟨_, ⟨⟩, -⟩

/-! ## The command -/

theorem not_contained_writeReport {path : String} {report : DrillReport} :
    ¬ Contained resources arguments given (.writeReport path report) := by
  rintro ⟨⟩

end Kept

/-- The report was written where it was asked for. -/
def Written (arguments : DrillArguments) (report : DrillReport) (said : List (Exchange Answer)) : Prop :=
  ∃ x ∈ said, x = ⟨.writeReport arguments.report report, (.ok () : Except HostError Unit)⟩

/-- What a run of the command keeps to. -/
structure Conduct (resources : DrillResources) (arguments : DrillArguments)
    (r : Except DrillException DrillExit)
    (said : List (Exchange Answer)) : Prop where
  /-- A plan asks for nothing. -/
  planned : arguments.plan = true → said = []
  contained : ∀ x ∈ said, Contained resources arguments (GivenIn said) x.question ∨
    ∃ report, x.question = .writeReport arguments.report report
  /-- What is removed has just answered with the drill's label. -/
  permitted : Permitted (fun x => Removes x.question) (PermitsRemoval resources) said
  /-- A report is the last request, and one that says the drill passed is earned. -/
  reports : ∀ before x after path report, said = before ++ x :: after → x.question = .writeReport path report →
    after = [] ∧ (report.status = .pass → Earned resources report before)
  /-- The exit code is 0 just if a report that says so was written. -/
  exit : (∃ exit, r = .ok exit ∧ exit.code = 0) ↔
    arguments.plan = true ∨ ∃ report, report.status = .pass ∧ Written arguments report said

section Conduct

variable {texts : DrillTexts} {respond : Respondent Answer} {resources : DrillResources}
    {arguments : DrillArguments}
  {r : Except DrillException DrillExit} {said before : List (Exchange Answer)}

/-- A run that stopped before its report. -/
theorem conduct_of_within (hplan : arguments.plan = false) (hwithin : Within resources arguments said)
    (hexit : ∀ exit, r = .ok exit → exit.code ≠ 0) : Conduct resources arguments r said where
  planned h := absurd h (by simp [hplan])
  contained x hx := Or.inl (hwithin.1 x hx)
  permitted := hwithin.2
  reports := by
    rintro before x after path report rfl hx
    exact absurd (hx ▸ hwithin.1 x (by simp)) not_contained_writeReport
  exit := by
    constructor
    · rintro ⟨exit, hr, hcode⟩
      exact absurd hcode (hexit exit hr)
    · rintro (h | ⟨report, -, x, hx, rfl⟩)
      · exact absurd h (by simp [hplan])
      · exact absurd (hwithin.1 _ hx) not_contained_writeReport

/-- A run that ended with its report. -/
theorem conduct_of_written {report : DrillReport} {answer : Except HostError Unit}
    (hplan : arguments.plan = false) (hbefore : Within resources arguments before)
    (hearned : report.status = .pass → Earned resources report before)
    (hexit : (∃ exit, r = .ok exit ∧ exit.code = 0) ↔ report.status = .pass ∧ answer = .ok ()) :
    Conduct resources arguments r (before ++ [⟨.writeReport arguments.report report, answer⟩]) where
  planned h := absurd h (by simp [hplan])
  contained := by
    intro x hx
    rcases List.mem_append.mp hx with hx | hx
    · exact Or.inl ((hbefore.1 x hx).mono fun _ ⟨y, hy, hgiven⟩ => ⟨y, List.mem_append_left _ hy, hgiven⟩)
    · obtain rfl := List.mem_singleton.mp hx
      exact Or.inr ⟨report, rfl⟩
  permitted := joins_permitted.append hbefore.2 (permitted_of_forall (by simp [Removes]))
  reports := by
    intro earlier x after path report' hsaid hx
    -- the report is the last request, so no earlier one is a report
    rcases List.append_eq_append_iff.mp hsaid with ⟨rest, rfl, hrest⟩ | ⟨rest, rfl, hrest⟩
    · cases rest with
      | nil =>
        obtain ⟨rfl, rfl⟩ := List.cons.inj hrest
        cases hx
        exact ⟨rfl, by simpa using hearned⟩
      | cons y rest => simp at hrest
    · cases rest with
      | nil =>
        obtain ⟨rfl, rfl⟩ := List.cons.inj hrest
        cases hx
        exact ⟨rfl, by simpa using hearned⟩
      | cons y rest =>
        obtain ⟨rfl, -⟩ := List.cons.inj hrest
        exact absurd (hx ▸ hbefore.1 x (by simp)) not_contained_writeReport
  exit := by
    rw [hexit]
    constructor
    · rintro ⟨hpass, rfl⟩
      exact Or.inr ⟨report, hpass, _, by simp, rfl⟩
    · rintro (h | ⟨report', hpass, x, hx, rfl⟩)
      · exact absurd h (by simp [hplan])
      · rcases List.mem_append.mp hx with hx | hx
        · exact absurd (hbefore.1 _ hx) not_contained_writeReport
        · cases List.mem_singleton.mp hx
          exact ⟨hpass, rfl⟩

theorem says_exitOf {outcome : Except DrillException DrillReport}
    {P : Except DrillException DrillExit → List (Exchange Answer) → Prop}
    (h : ∀ r, ((∃ exit, r = .ok exit ∧ exit.code = 0) ↔ ∃ report, outcome = .ok report) → P r []) :
    Says (exitOf outcome) P := by
  match outcome with
  | .ok report => exact Says.pure (h _ ⟨fun _ => ⟨report, rfl⟩, fun _ => ⟨_, rfl, rfl⟩⟩)
  | .error (.drillError message) =>
    refine Says.pure (h _ ⟨?_, by simp⟩)
    rintro ⟨_, ⟨⟩, ⟨⟩⟩
  | .error (.host e) => exact Says.raise (h _ (by simp))
  | .error (.raised e) => exact Says.raise (h _ (by simp))

end Conduct

end MarketPilot.Drill
