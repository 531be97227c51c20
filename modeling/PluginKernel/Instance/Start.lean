import PluginKernel.Instance.Report

/-!
# Starting

Starting brings a server up and opens a ledger. If there is a server already, nothing happens. If
the server cannot be brought up, the plugin is idle again and the reason is reported; the lock is
released first. A place to listen on is taken before anything else is changed, so a failure leaves
nothing behind.
-/

namespace PluginKernel.StartTask

variable {σ : Type}

/-- What starting does next; nothing while it waits. -/
def step? (setup : Setup) (t : Nat) (s : PluginState σ) : StartTask → Option (Move σ)
  | enter plugin =>
    match s.server with
    | some _ =>
      some ⟨(s.logged [.info "already running, ignoring start" [("plugin", plugin)]]).unlock,
        .start done, none⟩
    | none => some ⟨{ s with phase := .starting }, .start (bind plugin), none⟩
  | bind plugin =>
    let s := s.logged setup.bindEvents
    match setup.bind s.heldEndpoints with
    | .error e => some ⟨s, .start (fail plugin e), none⟩
    | .ok place =>
      some ⟨{ s with listeners := s.listeners ++ [{ endpoint := place }] },
        .start (announce plugin s.listeners.length), none⟩
  | announce plugin n =>
    some ⟨{ s with health := s.health.serve setup.choices.services },
      .start (launch plugin n), none⟩
  | launch plugin n =>
    some ⟨{ s.logged [.info "server listening"
        [("plugin", plugin), ("addr", s.endpointText n)]] with server := some n },
      .start (record plugin), some (.serve (.greet plugin n))⟩
  | record plugin =>
    let id := setup.equipment.argosId
    let l := Ledger.start id plugin s.clock
    some ⟨{ s.logged (Ledger.startEvents id plugin s.clock) with ledger := some l },
      .start (settle l), none⟩
  | settle l => some ⟨{ s with phase := .running }, .start (release l), none⟩
  | release l => some ⟨s.unlock, .start (emit l), none⟩
  | emit l => some ⟨s.emit l, .start done, none⟩
  | fail plugin e => some ⟨{ s with phase := .idle }, .start (giveUp plugin e), none⟩
  | giveUp plugin e =>
    some ⟨(s.logged [.warn "failed to start server"
        [("plugin", plugin), ("error", e.message)]]).unlock, .start (report (.check e)), none⟩
  | report r =>
    (r.step? setup t s).map fun (s, r) => ⟨s, .start (report r), none⟩
  | done => none

end PluginKernel.StartTask
