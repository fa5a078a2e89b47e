import Dmlf.Manager.Lifecycle

/-!
# Whole handlers are runs of single calls

`Manager.perform` runs a handler or a pass to its end; `Conf.exec` performs one call of it.  The
two agree: a handler that nothing interrupts makes the calls of its tasks one after the other, so
every state that the atomic manager reaches is one that the interleaved manager reaches, and the
invariants of `Dmlf.Manager.Lifecycle` hold there.

* `Conf.reachable_of_perform` : a handler as a whole is a run of its calls.
* `Conf.reachable_of_serial` : what the atomic manager reaches, the interleaved one reaches.
-/

namespace Dmlf

namespace Conf

variable {cfg : Setup} {m m' : Manager} {now : Time}

theorem reachable_runTask (m : Manager) (t : Task) (now : Time) :
    (fine cfg).Reachable ⟨m, [t]⟩ ⟨(t.step cfg now m).1, (t.step cfg now m).2.toList⟩ :=
  LTS.Reachable.of_exec (.runTask 0 now) rfl

theorem reachable_spawn (l : Label) (next : Manager × Option Task) {c : Conf}
    (hst : exec cfg ⟨m, []⟩ l = some ((⟨m, []⟩ : Conf).spawn next))
    (h : (fine cfg).Reachable ⟨next.1, next.2.toList⟩ c) : (fine cfg).Reachable ⟨m, []⟩ c :=
  (LTS.Reachable.of_exec l hst).append h

theorem reachable_schedReserve (job : JobDict) (nodes todo : List NodeRow) (m : Manager) :
    (fine cfg).Reachable ⟨m, [.schedReserve job nodes todo]⟩
      ⟨(m.reserveNodes todo).startJob job nodes now,
        [.schedSend job ((nodes.head?.map NodeRow.ipAddress).getD "") nodes.zipIdx]⟩ := by
  induction todo generalizing m with
  | nil => exact reachable_runTask m (.schedReserve job nodes []) now
  | cons node todo ih => exact (reachable_runTask m _ now).append (ih _)

theorem reachable_schedSend (job : JobDict) (masterAddr : String) (todo : List (NodeRow × ℕ))
    (m : Manager) :
    (fine cfg).Reachable ⟨m, [.schedSend job masterAddr todo]⟩
      ⟨todo.foldl (fun m (node, rank) =>
        m.sendCommand node.nodeId (m.launchCommand cfg job masterAddr rank)) m, []⟩ := by
  induction todo generalizing m with
  | nil => exact reachable_runTask m _ 0
  | cons x todo ih => exact (reachable_runTask m _ 0).append (ih _)

theorem reachable_monLoop (offline : List String) (jobs : List JobRow) (m : Manager) :
    (fine cfg).Reachable ⟨m, [.monLoop offline jobs]⟩
      ⟨(jobs.foldl (fun m job => m.failOver offline now job) m).markAndCount now, []⟩ := by
  induction jobs generalizing m with
  | nil => exact (reachable_runTask m _ now).append (reachable_runTask _ .monCount now)
  | cons job jobs ih =>
    refine (reachable_runTask m _ now).append ?_
    -- a retry takes one call more, for the append
    simp only [Task.step, List.foldl_cons, Manager.failOver]
    split_ifs
    · exact (reachable_runTask _ _ now).append (ih _)
    · exact ih _
    · exact ih _

theorem reachable_schedulerPass (m : Manager) :
    (fine cfg).Reachable ⟨m, []⟩ ⟨m.schedulerPass cfg now, []⟩ := by
  refine reachable_spawn (.schedulerPass now) m.beginSchedulerPass rfl ?_
  unfold Manager.beginSchedulerPass Manager.schedulerPass
  cases m.queue with
  | nil => exact .start
  | cons job queue =>
    refine (reachable_runTask _ _ now).append ?_
    simp only [Task.step]
    split_ifs with hempty
    · exact reachable_runTask _ _ now
    · exact (reachable_schedReserve job _ _ _).append (reachable_schedSend job _ _ _)

theorem reachable_monitorPass (m : Manager) :
    (fine cfg).Reachable ⟨m, []⟩ ⟨m.monitorPass cfg now, []⟩ := by
  refine reachable_spawn (.monitorPass now) (m.beginMonitorPass cfg now) rfl ?_
  simp only [Manager.beginMonitorPass, Manager.monitorPass]
  split_ifs
  · exact reachable_monLoop [] [] m
  · exact (reachable_runTask m _ now).append (reachable_monLoop _ _ m)

theorem reachable_reportJobStatus (m : Manager) (req : JobStatusRequest) :
    (fine cfg).Reachable ⟨m, []⟩ ⟨m.reportJobStatus req now, []⟩ := by
  refine reachable_spawn (.reportJobStatus req now) (m.beginReport req now) rfl ?_
  unfold Manager.beginReport Manager.reportJobStatus
  split_ifs with hf hc
  · cases m.registry.getJob req.jobId with
    | none => exact .start
    | some job =>
      simp only [Option.toList_some]
      split_ifs
      · exact (reachable_runTask m _ now).append
          ((reachable_runTask _ _ now).append (reachable_runTask _ _ now))
      · refine (reachable_runTask m _ now).append ?_
        refine (reachable_runTask _ (.closedSetIdle req) now).append ?_
        simp only [Task.step, hf, if_true]
        exact .start
  · refine (reachable_runTask _ (.closedSetIdle req) now).append ?_
    simp only [Task.step, hf, Bool.false_eq_true, if_false]
    exact .start
  · exact .start

/-- **A handler that nothing interrupts** is a run of its calls. -/
theorem reachable_of_perform {l : Label} (h : m.perform cfg l = some m') :
    (fine cfg).Reachable ⟨m, []⟩ ⟨m', []⟩ := by
  cases l with
  | registerNode nodeId nodeSecret req now =>
    simp only [Manager.perform] at h
    split_ifs at h with hnew
    obtain rfl := Option.some.inj h
    refine reachable_spawn (.registerNode nodeId nodeSecret req now)
      (m.insertNode nodeId nodeSecret req now, some (.registerQueue nodeId)) ?_
      (reachable_runTask _ _ now)
    simp only [exec, if_pos hnew]
  | sendHeartbeat req now =>
    obtain rfl := Option.some.inj h
    exact LTS.Reachable.of_exec (.sendHeartbeat req now) rfl
  | listenForCommands nodeId =>
    obtain rfl := Option.some.inj h
    exact LTS.Reachable.of_exec (.listenForCommands nodeId) rfl
  | takeCommand nodeId =>
    obtain ⟨x, hx, rfl⟩ := Option.map_eq_some_iff.1 h
    refine LTS.Reachable.of_exec (.takeCommand nodeId) ?_
    show (m.takeCommand nodeId).map _ = _
    rw [hx]
    rfl
  | reportJobStatus req now =>
    obtain rfl := Option.some.inj h
    exact reachable_reportJobStatus m req
  | submitJob jobId req now =>
    obtain ⟨m₁, hm₁, rfl⟩ := Option.map_eq_some_iff.1 h
    refine reachable_spawn (.submitJob jobId req now)
      (m₁, some (.submitAppend (req.toDict jobId))) ?_ (reachable_runTask _ _ now)
    simp only [exec, hm₁, Option.map_some]
  | schedulerPass now => obtain rfl := Option.some.inj h; exact reachable_schedulerPass m
  | monitorPass now => obtain rfl := Option.some.inj h; exact reachable_monitorPass m
  | probe now =>
    obtain rfl := Option.some.inj h
    exact LTS.Reachable.of_exec (.probe now) rfl
  | restart =>
    obtain rfl := Option.some.inj h
    exact LTS.Reachable.of_exec .restart rfl
  | runTask i now => cases h

/-- **The interleaved manager reaches every state of the atomic one.** -/
theorem reachable_of_serial (h : (Manager.serial cfg).Reachable m m') :
    (fine cfg).Reachable ⟨m, []⟩ ⟨m', []⟩ :=
  h.keeps (I := fun m' => (fine cfg).Reachable ⟨m, []⟩ ⟨m', []⟩)
    (fun _ _ _ hst ih => ih.append (reachable_of_perform hst)) .start

end Conf

end Dmlf
