import CertKeeper.Store

/-!
# Restarting the servers

A server loads its certificate when it starts, so after a rotation the executing instance removes
the instances of its group, itself last, and relies on the cluster to bring up new ones. What goes
wrong is reported and stops nothing.
-/

namespace CertKeeper

/-- An instance that could not be removed. -/
structure RestartFailure where
  instanceName : String
  cause : Failure

/-- The report of one failure. -/
def RestartFailure.message (f : RestartFailure) : String :=
  "cannot delete instance " ++ Text.quote f.instanceName ++ ": " ++ f.cause.message

/-- What a restart did. -/
structure RestartReport where
  /-- Why nothing was attempted, or an empty text. -/
  skipped : String
  /-- The names of the removed instances, in the order of removal. -/
  terminated : List String
  /-- The instances that could not be removed, in the order of the attempts. -/
  failures : List RestartFailure
  /-- Whether the executing instance was removed. -/
  selfTerminated : Bool

namespace RestartReport

/-- Nothing done yet. -/
def start : RestartReport := ⟨"", [], [], false⟩

/-- Nothing done, for a reason. -/
def skip (reason : String) : RestartReport := ⟨reason, [], [], false⟩

end RestartReport

namespace Restart

/-- Removes an instance and reports it. -/
def remove (report : RestartReport) (i : Instance) : Action Store (RestartReport × Bool) := do
  match ← (Store.deleteInstance i.id).outcome with
  | .ok () => return ({ report with terminated := report.terminated ++ [i.id.name] }, true)
  | .error cause =>
    return ({ report with failures := report.failures ++ [⟨i.id.name, cause⟩] }, false)

/-- Removes instances one after another and reports them. -/
def removeAll : RestartReport → List Instance → Action Store RestartReport
  | report, [] => return report
  | report, i :: rest => do
    let (report, _) ← remove report i
    removeAll report rest

/-- Removes the group of an instance and then the instance itself. -/
def restart (self : Identity) : Action Store RestartReport := do
  match ← (Store.getInstance self).outcome with
  | .error _ =>
    return .skip ("leader instance " ++ Text.quote self.text ++ " not found")
  | .ok leader =>
    match ← (Store.listInstances leader.id.space leader.labels).outcome with
    | .error cause => return .skip ("cannot list instances: " ++ cause.message)
    | .ok group =>
      let others := group.filter fun i => i.id.name ≠ leader.id.name
      let report ← removeAll .start others
      let (report, gone) ← remove report leader
      return { report with selfTerminated := gone }

end Restart

end CertKeeper
