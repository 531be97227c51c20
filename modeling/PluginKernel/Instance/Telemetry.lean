import PluginKernel.Instance.Task

/-!
# Ledgers on their way out

Ledgers that are sent out are first kept, entry by entry, and then delivered to the host, each by a
task of its own with a queue in front of it that has no limit. A host that does not take ledgers
holds up the delivery only.
-/

namespace PluginKernel

variable {σ : Type}

/-- What keeping ledgers does next; nothing while it waits. -/
def KeeperTask.step? [RecordStore σ] (setup : Setup) (s : PluginState σ) :
    KeeperTask → Option (PluginState σ × KeeperTask)
  | receive =>
    match s.outbox with
    | [] => none
    | l :: rest =>
      some ({ s with outbox := rest },
        match setup.filing? with
        | some filing => persist filing l l.statistics {}
        | none => forward l)
  | persist _ l [] summary =>
    some (s.logged (if 0 < summary.failed then [partialEvent summary] else []), forward l)
  | persist filing l (entry :: rest) summary =>
    let p := Ledger.persistEntry filing ⟨s.store, summary, []⟩ entry
    some ({ s.logged p.events with store := p.store }, persist filing l rest p.summary)
  | forward l => some ({ s with pending := s.pending ++ [l] }, receive)
where
  /-- What is logged about a ledger that was not kept as a whole. -/
  partialEvent (summary : WriteCount) : LogEvent :=
    .warn "dataflow statistics partially persisted"
      [("written", Text.showInt summary.written), ("failed", Text.showInt summary.failed)]

/-- What delivering ledgers does next; nothing while it waits. -/
def CourierTask.step? (t : Nat) (s : PluginState σ) :
    CourierTask → Option (PluginState σ × CourierTask)
  | receive =>
    match s.pending with
    | [] => none
    | l :: rest => some ({ s with pending := rest }, send l)
  | send l =>
    match s.dataflow.send t l with
    | .sent q => some ({ s with dataflow := q }, receive)
    | .waits q => some ({ s with dataflow := q }, wait)
    | .refused => some (s, receive)
  | wait => (s.dataflow.resume? t).map fun (_, q) => ({ s with dataflow := q }, receive)

end PluginKernel
