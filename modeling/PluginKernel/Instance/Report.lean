import PluginKernel.Instance.Task

/-!
# Reporting an error

An error is charged to the last milestone of the run, if there is one, and then handed to the host.
The ledger with the failure is queued before the error is sent, and sending the error is all that
may have to wait. If the host does not take errors any more, nothing is recorded.
-/

namespace PluginKernel.ReportTask

variable {σ : Type}

/-- What a report does next; nothing while it waits. -/
def step? (setup : Setup) (t : Nat) (s : PluginState σ) :
    ReportTask → Option (PluginState σ × ReportTask)
  | check e =>
    if s.errors.hasReceiver then some (s, record e)
    else
      some (s.logged [.warn "error channel closed, dropping error" [("error", e.message)]], done)
  | record e =>
    match s.ledger with
    | none => some (s, send e)
    | some l =>
      match l.lastMilestone? with
      | none =>
        some (s.logged [.warn "failed to get dataflow statistic context"
          [("error", StatisticError.emptyLedger.message)]], send e)
      | some m =>
        let id := setup.equipment.argosId
        let l' := l.record id m.failed Outcome.failureMode s.clock
        some ({ s.logged (l.recordEvents id m.failed Outcome.failureMode s.clock) with
          ledger := some l' }, emit l' e)
  | emit l e =>
    some ((s.logged [.info "sending failed dataflow statistic to kernel"
      [("ledger", l.name)]]).emit l, send e)
  | send e =>
    match s.errors.send t e with
    | .sent q => some ({ s with errors := q }, done)
    | .waits q => some ({ s with errors := q }, wait e)
    | .refused => some (s.logged (refusedEvents e), done)
  | wait e =>
    match s.errors.resume? t with
    | none => none
    | some (true, q) => some ({ s with errors := q }, done)
    | some (false, q) => some ({ s.logged (refusedEvents e) with errors := q }, done)
  | done => none
where
  /-- What is logged about an error that the host has not taken. -/
  refusedEvents (e : PluginError) : List LogEvent :=
    [.warn "error channel closed before the error was delivered"
      [("error", Text.sanitize e.message)]]

end PluginKernel.ReportTask
