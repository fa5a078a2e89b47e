import Dmlf.Agent.Session

/-!
# What becomes of a launch command

`launch_torchrun` refuses a command while a process is alive, and returns `False`; the loop that
takes the commands does not look at the result.

* `Session.Traced` : what an agent starts and reports goes back to commands that it has handled.
* `Session.accounted_iff` : every launch is accounted for exactly if each finds the launcher idle.
-/

namespace Dmlf

namespace JobLauncher

variable {launcher launcher' : JobLauncher}

/-- The commands that processes have been started for. -/
def started (launcher : JobLauncher) : List Command := launcher.processes.map Process.command

theorem started_launchTorchrun (launcher : JobLauncher) (command : Command) :
    (launcher.launchTorchrun command).started =
      if launcher.isBusy then launcher.started else launcher.started ++ [command] := by
  unfold launchTorchrun started
  split_ifs <;> simp

theorem started_stopCurrentJob (launcher : JobLauncher) :
    launcher.stopCurrentJob.started = launcher.started := by
  unfold stopCurrentJob
  split_ifs <;> rfl

theorem started_setProcess {k : ℕ} {p q : Process} (hk : launcher.processes[k]? = some p)
    (hq : q.command = p.command) : (launcher.setProcess k q).started = launcher.started := by
  obtain ⟨hlt, rfl⟩ := List.getElem?_eq_some_iff.1 hk
  have hlt' : k < (launcher.processes.map Process.command).length := by simpa using hlt
  have hset := List.set_getElem_self hlt'
  rw [List.getElem_map] at hset
  rw [started, setProcess, List.map_set, hq, hset]
  rfl

theorem started_exit {k : ℕ} {code : ℤ} (h : launcher.exit k code = some launcher') :
    launcher'.started = launcher.started := by
  obtain ⟨p, hp, -, rfl⟩ := eq_of_exit h
  exact started_setProcess hp rfl

theorem started_logStep {k : ℕ} {status : Option String}
    (h : launcher.logStep k = some (launcher', status)) : launcher'.started = launcher.started := by
  obtain ⟨p, thread, hp, rfl⟩ := eq_of_logStep h
  exact started_setProcess hp rfl

end JobLauncher

namespace Session

variable {nodeId : String} {s s' : Session}

/-- The commands that processes have been started for. -/
def started (s : Session) : List Command := s.agent.launcher.started

/-- Each `LAUNCH_JOB` that the agent has handled has started a process, or has led to a report
that its job failed. -/
def Accounted (s : Session) : Prop :=
  ∀ command ∈ s.taken, command ∈ s.started ∨ ∃ report ∈ s.reports,
    report.origin = command.commandId ∧
      report.request.jobId = command.jobPayload.jobId ∧ report.request.status = "failed"

/-- A launch finds the launcher without a live process. -/
def LaunchesIdle (s : Session) : SessionMove → Prop
  | .receive => s.nextLaunch.isSome = true → s.agent.launcher.isBusy = false
  | _ => True

/-- The commands are told apart by their ids, and processes and reports go back to commands that
have been handled. -/
structure Traced (s : Session) : Prop where
  stream : ∀ command ∈ s.agent.stream, command.commandId ∈ s.yielded
  nodup : (s.agent.stream.map Command.commandId).Nodup
  taken : ∀ command ∈ s.taken, command.commandId ∈ s.yielded
  fresh : ∀ command ∈ s.agent.stream, ∀ command' ∈ s.taken,
    command.commandId ≠ command'.commandId
  started : ∀ command ∈ s.started, command ∈ s.taken
  reports : ∀ report ∈ s.reports, ∃ command ∈ s.taken, command.commandId = report.origin

theorem traced_start : start.Traced where
  stream := by rintro _ ⟨⟩
  nodup := List.nodup_nil
  taken := by rintro _ ⟨⟩
  fresh := by rintro _ ⟨⟩
  started := by rintro _ ⟨⟩
  reports := by rintro _ ⟨⟩

theorem Traced.congr (h : s.Traced) (hstream : s'.agent.stream = s.agent.stream)
    (hstarted : s'.started = s.started) (hy : s'.yielded = s.yielded) (ht : s'.taken = s.taken)
    (hr : ∀ report ∈ s'.reports, report ∈ s.reports ∨
      ∃ command ∈ s.started, command.commandId = report.origin) : s'.Traced where
  stream := by rw [hstream, hy]; exact h.stream
  nodup := by rw [hstream]; exact h.nodup
  taken := by rw [ht, hy]; exact h.taken
  fresh := by rw [hstream, ht]; exact h.fresh
  started := by rw [hstarted, ht]; exact h.started
  reports := by
    intro report hreport
    rw [ht]
    rcases hr report hreport with hold | ⟨command, hc, hid⟩
    · exact h.reports report hold
    · exact ⟨command, h.started command hc, hid⟩

/-- What the handling of a command can do. -/
inductive ReceiveEffect (s : Session) : Session → Prop
  | launch {s' : Session} (command : Command) (rest : List Command) :
      s.agent.stream = command :: rest → s.nextLaunch = some command →
      s'.agent.stream = rest → s'.yielded = s.yielded → s'.taken = s.taken ++ [command] →
      s'.reports = s.reports →
      s'.started = (if s.agent.launcher.isBusy then s.started else s.started ++ [command]) →
      ReceiveEffect s s'
  | other {s' : Session} (command : Command) (rest : List Command) :
      s.agent.stream = command :: rest → s.nextLaunch = none →
      s'.agent.stream = rest → s'.yielded = s.yielded → s'.taken = s.taken →
      s'.reports = s.reports → s'.started = s.started → ReceiveEffect s s'

theorem receiveEffect (hst : exec nodeId s .receive = some s') : ReceiveEffect s s' := by
  obtain ⟨agent, hagent, rfl⟩ := Option.map_eq_some_iff.1 hst
  unfold Agent.receive at hagent
  split at hagent
  · cases hagent
  · rename_i command rest hstream
    obtain rfl := Option.some.inj hagent
    have hnext : s.nextLaunch = if command.type = .launchJob then some command else none := by
      simp [nextLaunch, hstream, Option.filter_some]
    cases htype : command.type with
    | launchJob =>
      rw [if_pos htype] at hnext
      exact .launch command rest hstream hnext rfl rfl (by rw [hnext]; rfl) rfl
        (JobLauncher.started_launchTorchrun _ _)
    | stopJob =>
      rw [if_neg (by simp [htype])] at hnext
      exact .other command rest hstream hnext rfl rfl (by simp [hnext]) rfl
        (JobLauncher.started_stopCurrentJob _)
    | unknown =>
      rw [if_neg (by simp [htype])] at hnext
      exact .other command rest hstream hnext rfl rfl (by simp [hnext]) rfl rfl

theorem Traced.notMem_taken (h : s.Traced) {command : Command} {rest : List Command}
    (hstream : s.agent.stream = command :: rest) {command' : Command} (hc : command' ∈ s.taken) :
    command'.commandId ≠ command.commandId :=
  Ne.symm (h.fresh command (hstream ▸ List.mem_cons_self) command' hc)

theorem Traced.receive (h : s.Traced) (hst : exec nodeId s .receive = some s') : s'.Traced := by
  cases receiveEffect hst with
  | other command rest hstream _ hrest hy ht hr hstarted =>
    have hnodup := h.nodup
    rw [hstream] at hnodup
    exact {
      stream := fun c hc => hy ▸ h.stream c (hstream ▸ List.mem_cons_of_mem _ (hrest ▸ hc))
      nodup := hrest ▸ (List.nodup_cons.1 hnodup).2
      taken := ht ▸ hy ▸ h.taken
      fresh := fun c hc => ht ▸ h.fresh c (hstream ▸ List.mem_cons_of_mem _ (hrest ▸ hc))
      started := hstarted ▸ ht ▸ h.started
      reports := hr ▸ ht ▸ h.reports }
  | launch command rest hstream _ hrest hy ht hr hstarted =>
    have hnodup := h.nodup
    rw [hstream] at hnodup
    obtain ⟨hhead, hnodup⟩ := List.nodup_cons.1 hnodup
    have hmem : ∀ c ∈ s'.agent.stream, c ∈ s.agent.stream := fun c hc =>
      hstream ▸ List.mem_cons_of_mem _ (hrest ▸ hc)
    refine ⟨fun c hc => hy ▸ h.stream c (hmem c hc), hrest ▸ hnodup, fun c hc => ?_,
      fun c hc c' hc' => ?_, fun c hc => ?_, fun report hreport => ?_⟩
    · rw [hy]
      rcases List.mem_append.1 (ht ▸ hc) with hc | hc
      · exact h.taken c hc
      · obtain rfl := List.mem_singleton.1 hc
        exact h.stream c (hstream ▸ List.mem_cons_self)
    · rcases List.mem_append.1 (ht ▸ hc') with hc' | hc'
      · exact h.fresh c (hmem c hc) c' hc'
      · -- the ids in the stream differ
        obtain rfl := List.mem_singleton.1 hc'
        intro hid
        exact hhead (hid ▸ List.mem_map_of_mem (hrest ▸ hc))
    · rw [ht]
      rw [hstarted] at hc
      split_ifs at hc
      · exact List.mem_append_left _ (h.started c hc)
      · rcases List.mem_append.1 hc with hc | hc
        · exact List.mem_append_left _ (h.started c hc)
        · exact List.mem_append_right _ hc
    · obtain ⟨c, hc, hid⟩ := h.reports report (hr ▸ hreport)
      exact ⟨c, ht ▸ List.mem_append_left _ hc, hid⟩

/-- **A command that is handled is accounted for exactly if it finds the launcher idle.** -/
theorem accounted_receive (hK : s.Traced) (h : s.Accounted)
    (hst : exec nodeId s .receive = some s') : s'.Accounted ↔ s.LaunchesIdle .receive := by
  cases receiveEffect hst with
  | other command rest hstream hnext _ _ htaken hreports hstarted =>
    refine iff_of_true ?_ (by simp [LaunchesIdle, hnext])
    unfold Accounted
    rwa [htaken, hstarted, hreports]
  | launch command rest hstream hnext _ _ htaken hreports hstarted =>
    unfold Accounted
    rw [htaken, hstarted, hreports]
    constructor
    · intro h' _
      by_contra hbusy
      rw [if_pos (by simpa using hbusy)] at h'
      rcases h' command (by simp) with hmem | ⟨report, hreport, horigin, -⟩
      · exact hK.notMem_taken hstream (hK.started command hmem) rfl
      · obtain ⟨command', hc, hid⟩ := hK.reports report hreport
        exact hK.notMem_taken hstream hc (hid.trans horigin)
    · intro hidle
      rw [hidle (by rw [hnext]; rfl)]
      intro command' hc
      rcases List.mem_append.1 hc with hc | hc
      · exact (h command' hc).imp_left (List.mem_append_left _)
      · exact .inl (List.mem_append_right _ hc)

/-- A move other than the handling of a command keeps the commands apart, and it forgets neither
a process nor a report. -/
theorem traced_quiet (h : s.Traced) {mv : SessionMove} (hst : exec nodeId s mv = some s')
    (hmv : mv ≠ .receive) : s'.Traced ∧ s'.taken = s.taken ∧ s'.started = s.started ∧
      s.reports ⊆ s'.reports := by
  cases mv with
  | receive => exact absurd rfl hmv
  | connect =>
    obtain ⟨-, hs'⟩ := Option.ite_none_left_eq_some.1 hst
    obtain rfl := Option.some.inj hs'
    exact ⟨h.congr rfl rfl rfl rfl (fun _ => .inl), rfl, rfl, List.Subset.refl _⟩
  | yield command =>
    obtain ⟨⟨-, hnew⟩, hs'⟩ := Option.ite_none_right_eq_some.1 hst
    obtain rfl := Option.some.inj hs'
    refine ⟨⟨fun c hc => ?_, ?_, fun c hc => List.mem_append_left _ (h.taken c hc),
      fun c hc c' hc' => ?_, h.started, h.reports⟩, rfl, rfl, List.Subset.refl _⟩
    · rcases List.mem_append.1 hc with hc | hc
      · exact List.mem_append_left _ (h.stream c hc)
      · exact List.mem_append_right _ (List.mem_singleton.1 hc ▸ List.mem_singleton_self _)
    · -- the id is new
      rw [List.map_append, List.map_singleton, List.nodup_append_comm, List.singleton_append,
        List.nodup_cons]
      refine ⟨fun hmem => ?_, h.nodup⟩
      obtain ⟨c, hc, hid⟩ := List.mem_map.1 hmem
      exact hnew (hid ▸ h.stream c hc)
    · rcases List.mem_append.1 hc with hc | hc
      · exact h.fresh c hc c' hc'
      · obtain rfl := List.mem_singleton.1 hc
        exact fun hid => hnew (hid ▸ h.taken c' hc')
  | disconnect =>
    obtain rfl := Option.some.inj hst
    exact ⟨⟨by rintro _ ⟨⟩, List.nodup_nil, h.taken, by rintro _ ⟨⟩, h.started, h.reports⟩, rfl,
      rfl, List.Subset.refl _⟩
  | exit k code =>
    obtain ⟨agent, hagent, rfl⟩ := Option.map_eq_some_iff.1 hst
    obtain ⟨launcher, hlauncher, rfl⟩ := Option.map_eq_some_iff.1 hagent
    have hstarted := JobLauncher.started_exit hlauncher
    exact ⟨h.congr rfl hstarted rfl rfl (fun _ => .inl), rfl, hstarted, List.Subset.refl _⟩
  | logStep k =>
    obtain ⟨⟨agent, report⟩, hlog, rfl⟩ := Option.map_eq_some_iff.1 hst
    obtain ⟨p, launcher, status, hp, hlauncher, rfl, rfl⟩ := Agent.eq_of_logStep hlog
    have hstarted := JobLauncher.started_logStep hlauncher
    refine ⟨h.congr rfl hstarted rfl rfl fun r hr => ?_, rfl, hstarted,
      List.subset_append_left _ _⟩
    rcases List.mem_append.1 hr with hr | hr
    · exact .inl hr
    · -- a report is about the process of its log thread
      obtain ⟨text, -, rfl⟩ := Option.map_eq_some_iff.1 (Option.mem_toList.1 hr)
      exact .inr ⟨p.command, List.mem_map_of_mem (List.mem_of_getElem? hp), rfl⟩

theorem preserves_traced : (lts nodeId).Preserves Traced := by
  intro s mv s' hst h
  by_cases hmv : mv = .receive
  · subst hmv
    exact h.receive hst
  · exact (traced_quiet h hst hmv).1

/-- A move leads from accounted launches to accounted launches exactly if it launches on an idle
launcher, if at all. -/
theorem accounted_step (hK : s.Traced) (h : s.Accounted) {mv : SessionMove}
    (hst : exec nodeId s mv = some s') : s'.Accounted ↔ s.LaunchesIdle mv := by
  by_cases hmv : mv = .receive
  · subst hmv
    exact accounted_receive hK h hst
  · obtain ⟨-, htaken, hstarted, hreports⟩ := traced_quiet hK hst hmv
    refine iff_of_true ?_ ?_
    · intro command hc
      rw [hstarted]
      refine (h command (htaken ▸ hc)).imp_right ?_
      rintro ⟨report, hreport, hcause⟩
      exact ⟨report, hreports hreport, hcause⟩
    · cases mv with
      | receive => exact absurd rfl hmv
      | connect | yield | disconnect | exit | logStep => trivial

/-- **Every launch is accounted for, exactly if each finds the launcher idle.**  In all states of
a run of an agent each `LAUNCH_JOB` that it has taken has started a process or has led to a report
that its job failed, if and only if none is taken while the launcher has a live process. -/
theorem accounted_iff {tr : List (SessionMove × Session)} (h : (lts nodeId).Run start tr) :
    LTS.StatesMeet Accounted start tr ↔ LTS.StepsMeet LaunchesIdle start tr :=
  h.statesMeet_iff_stepsMeet preserves_traced (fun _ _ _ hK hI hst => accounted_step hK hI hst)
    traced_start (by rintro _ ⟨⟩)

/-- The run in which a job is launched. -/
theorem accounted_iff_launch :
    LTS.StatesMeet Accounted start (LTS.runOf (exec "node-1") start Sample.launchOne) ↔
      LTS.StepsMeet LaunchesIdle start (LTS.runOf (exec "node-1") start Sample.launchOne) :=
  accounted_iff (LTS.run_runOf _ _ _)

/-- A second job is launched while the process of the first is alive, and nothing comes of it. -/
theorem accounted_fails :
    ¬ ∀ (nodeId : String) (s : Session), (lts nodeId).Reachable start s → s.Accounted := by
  intro hall
  obtain ⟨s, hs, hp⟩ := LTS.exists_of_exec (exec "node-1") start
    (Sample.launchOne ++ [.yield (Sample.launch "job-2"), .receive])
    (fun s => s.reports.isEmpty && s.taken.any fun command =>
      !(s.started.map Command.commandId).contains command.commandId)
    (by decide +kernel)
  obtain ⟨hreports, hp⟩ := (Bool.and_eq_true _ _).mp hp
  obtain ⟨command, hc, hnot⟩ := List.any_eq_true.1 hp
  rcases hall _ s hs command hc with hstarted | ⟨report, hreport, -⟩
  · simp [List.mem_map_of_mem hstarted] at hnot
  · rw [List.isEmpty_iff.1 hreports] at hreport
    cases hreport

end Session

end Dmlf
