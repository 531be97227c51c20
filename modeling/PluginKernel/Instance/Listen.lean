import PluginKernel.Instance.Task

/-!
# Listening to commands

Commands are taken one after the other. For a start or a stop the lifecycle lock is obtained first,
and then handed to a task that does the rest, so that their effects come in the order of the
commands. The first stop is announced to the host and ends the listening; so does a host that sends
no more. Other commands do nothing.
-/

namespace PluginKernel.ListenTask

variable {σ : Type}

/-- What is logged when the host does not take errors any more. -/
def unannounced : LogEvent := .warn "error channel closed, shutdown sentinel not delivered"

/-- What follows a transition that has been set off. -/
def after : Transition → ListenTask
  | .start _ => receive
  | .stop plugin => announce plugin

/-- What listening does next; nothing while it waits. A task that it sets off gets the number
`fresh`. -/
def step? (t fresh : Nat) (s : PluginState σ) : ListenTask → Option (Move σ)
  | .open => some ⟨s.logged [.info "command receiver initialized"], .listen receive, none⟩
  | receive =>
    match s.commands.next? with
    | none => if s.commands.hasSender then none else some ⟨s, .listen close, none⟩
    | some (c, q) =>
      let s := { s with commands := q }
      match c.request with
      | .start => some ⟨s, .listen (ask (.start c.plugin)), none⟩
      | .stop => some ⟨s, .listen (ask (.stop c.plugin)), none⟩
      | .status | .unknown => some ⟨s, .listen receive, none⟩
  | ask tr => some ⟨{ s with lock := s.lock.ask t }, .listen (await tr), none⟩
  | await tr =>
    if s.lock.holder = some t then
      some ⟨{ s with lock := s.lock.handTo fresh }, .listen (after tr),
        some (Task.ofTransition tr)⟩
    else none
  | announce plugin =>
    match s.errors.send t (.shuttingDown plugin) with
    | .sent q => some ⟨{ s with errors := q }, .listen close, none⟩
    | .waits q => some ⟨{ s with errors := q }, .listen wait, none⟩
    | .refused => some ⟨s.logged [unannounced], .listen close, none⟩
  | wait =>
    match s.errors.resume? t with
    | none => none
    | some (true, q) => some ⟨{ s with errors := q }, .listen close, none⟩
    | some (false, q) => some ⟨{ s.logged [unannounced] with errors := q }, .listen close, none⟩
  | close =>
    some ⟨{ s.logged [.info "command receiver terminated"] with
      listening := false, commands := s.commands.dropReceiver }, .listen done, none⟩
  | done => none

end PluginKernel.ListenTask
