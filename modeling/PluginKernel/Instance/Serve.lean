import PluginKernel.Instance.Task

/-!
# Serving

A server acknowledges the start to the host before it serves, and then serves until it is told to
stop. Only then is its place free again.
-/

namespace PluginKernel.ServeTask

variable {σ : Type}

/-- What is logged when the host does not take acknowledgments any more. -/
def unacknowledged : LogEvent := .warn "command channel closed, start not acknowledged"

/-- What a server does next; nothing while it waits or serves. -/
def step? (t : Nat) (s : PluginState σ) : ServeTask → Option (PluginState σ × ServeTask)
  | greet plugin n =>
    match s.acks.send t ⟨plugin, .start⟩ with
    | .sent q => some ({ s with acks := q }, .open n)
    | .waits q => some ({ s with acks := q }, wait n)
    | .refused => some (s.logged [unacknowledged], .open n)
  | wait n =>
    match s.acks.resume? t with
    | none => none
    | some (true, q) => some ({ s with acks := q }, .open n)
    | some (false, q) => some ({ s.logged [unacknowledged] with acks := q }, .open n)
  | .open n =>
    some (s.logged [.info "TLS server listening" [("addr", s.endpointText n)]], serve n)
  | serve n =>
    match s.listeners[n]? with
    | none => none
    | some l =>
      if l.cancelled then
        some ((s.setListener n fun l => { l with closed := true }).logged
          [.info "TLS server stopped" [("addr", l.endpoint.text)]], done)
      else none
  | done => none

end PluginKernel.ServeTask
