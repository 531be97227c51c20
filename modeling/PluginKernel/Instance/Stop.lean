import PluginKernel.Instance.Task

/-!
# Stopping

Stopping marks the services as down, tells the server to stop and waits until it has, then closes
the ledger. A plugin without a server can be stopped as well. In either case the stop is
acknowledged, after the lock has been released.
-/

namespace PluginKernel.StopTask

variable {σ : Type}

/-- What is logged when the host does not take acknowledgments any more. -/
def unacknowledged : LogEvent := .warn "command channel closed, stop not acknowledged"

/-- What stopping does next; nothing while it waits. -/
def step? (setup : Setup) (t : Nat) (s : PluginState σ) :
    StopTask → Option (PluginState σ × StopTask)
  | enter plugin =>
    let s := s.logged [.info "received shutdown message from kernel" [("plugin", plugin)]]
    match s.server with
    | some n =>
      some ({ s.logged [.info "stopping server"] with server := none, phase := .stopping },
        silence plugin n)
    | none => some (s.logged [.info "no server running"], record plugin)
  | silence plugin n => some ({ s with health := s.health.shutdown }, cancel plugin n)
  | cancel plugin n =>
    some (s.setListener n fun l => { l with cancelled := true }, join plugin n)
  | join plugin n =>
    match s.listeners[n]? with
    | none => none
    | some l => if l.closed then some (s.logged [.info "stopped server"], record plugin) else none
  | record plugin =>
    match s.ledger with
    | none => some (s, settle plugin none)
    | some l =>
      let id := setup.equipment.argosId
      let m := Milestone.shutdown plugin
      some ({ s.logged (l.recordEvents id m Outcome.successMode s.clock) with ledger := none },
        settle plugin (some (l.record id m Outcome.successMode s.clock)))
  | settle plugin l => some ({ s with phase := .idle }, release plugin l)
  | release plugin l => some (s.unlock, emit plugin l)
  | emit plugin l =>
    match l with
    | some l => some (s.emit l, acknowledge plugin)
    | none => some (s, acknowledge plugin)
  | acknowledge plugin =>
    match s.acks.send t ⟨plugin, .stop⟩ with
    | .sent q => some ({ s with acks := q }, done)
    | .waits q => some ({ s with acks := q }, wait)
    | .refused => some (s.logged [unacknowledged], done)
  | wait =>
    match s.acks.resume? t with
    | none => none
    | some (true, q) => some ({ s with acks := q }, done)
    | some (false, q) => some ({ s.logged [unacknowledged] with acks := q }, done)
  | done => none

end PluginKernel.StopTask
