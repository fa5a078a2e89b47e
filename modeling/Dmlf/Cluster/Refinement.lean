import Dmlf.Manager.Lifecycle
import Dmlf.Cluster.Basic

/-!
# The cluster refines the ledger

`Dmlf.Ledger.Basic` says what becomes of a job without a word about tables, queues, threads or
agents: it waits, is used, waits again, and is closed.  What the manager and its agents do, with all
their calls and messages in any order, is a run of it.

* `World.ledgerProjection` : a move from a well-formed state is an action of the ledger, or does not
  show in it.
* `World.refines_ledger` : a run of the cluster is a run of the ledger.
-/

namespace Dmlf

namespace World

variable {cfg : Setup} {w : World Conf} {tr : List (Move × World Conf)}

/-- What the ledger knows of a world. -/
def ledger (w : World Conf) : Ledger String Bool := w.manager.ledger

/-- The action of the ledger that a move is, if the manager takes part in it. -/
def act (w : World Conf) (mv : Move) : Option (Ledger.Act String Bool) :=
  (w.label mv).map w.manager.act

/-- **A move is an action of the ledger**, or does not show in it. -/
theorem ledgerProjection :
    LTS.Projection ((lts (.fine cfg)).restrict fun w _ => w.manager.WellFormed) Ledger.lts
      ledger act where
  quiet := by
    intro w mv w' hst hmv
    have hsame : w'.manager = w.manager :=
      (projection (.fine cfg)).quiet hst.2 (Option.map_eq_none_iff.1 hmv)
    rw [ledger, ledger, hsame]
  step := by
    intro w mv w' a hst hmv
    obtain ⟨l, hl, rfl⟩ := Option.map_eq_some_iff.1 hmv
    obtain ⟨-, hen, happ⟩ := Conf.simulates hst.1 ((projection (.fine cfg)).step hst.2 hl)
    exact ⟨hen, happ⟩

theorem preserves_wellFormed : (lts (.fine cfg)).Preserves fun w => w.manager.WellFormed :=
  (projection (.fine cfg)).preserves fun _ _ _ hst h => h.step hst

/-- **The cluster refines the ledger**: in every run of a manager and its agents, whatever is lost
or comes late and however often the manager is killed, the jobs go through a run of the ledger from
the empty one, which ends in the ledger of the world the run ends in. -/
theorem refines_ledger (h : (lts (.fine cfg)).Run (start (.start .empty)) tr) :
    let steps := LTS.Projection.trace ledger act (start (.start .empty)) tr
    Ledger.lts.Run .empty steps ∧
      LTS.last .empty steps = (LTS.last (start (.start .empty)) tr).ledger := by
  have hwell : LTS.StepsMeet (fun w _ => w.manager.WellFormed) (start (.start .empty)) tr :=
    h.stepsMeet preserves_wellFormed (Conf.wellFormed_start .empty)
  have hrun := ledgerProjection.run (h.restrict hwell)
  rwa [show (start (.start .empty)).ledger = .empty from Conf.ledger_start] at hrun

/-- A job is run by two nodes, and the report of one of them closes it. -/
theorem refines_ledger_finish :
    let tr := LTS.runOf (exec (.fine Sample.setup)) (start (.start .empty))
      (Sample.launchTwo true ++ Sample.finish "node-1" 0 0 ++ [.deliverReport 0 110])
    let steps := LTS.Projection.trace ledger act (start (.start .empty)) tr
    ((LTS.last .empty steps).used "job-1" = 1 ∧
      ((LTS.last .empty steps).item "job-1").map Item.phase = some (.closed true)) ∧
    Ledger.lts.Run .empty steps ∧
    LTS.last .empty steps = (LTS.last (start (.start .empty)) tr).ledger :=
  ⟨by decide +kernel, refines_ledger (LTS.run_runOf _ _ _)⟩

end World

end Dmlf
