import PluginKernel.Message.Chat
import PluginKernel.Proofs.Instance.Dispatching
import PluginKernel.Proofs.Json.Members
import PluginKernel.Proofs.Json.RoundTrip
import PluginKernel.Proofs.SortedMaps

/-!
# Messages on the wire

What a message is written as is read as the same message. A value that is read as a command spells
it: it is an object that names the plugin and the request, whatever else it holds, or the list of
the two. The request is named by a text, or by the only member of an object, and nothing but the
three names that a host uses makes a plugin start, stop or answer. Every other name makes the
listener take the command and do nothing.
-/

namespace PluginKernel

/-! ## Requests -/

namespace Request

/-- A value names a request: it is the name, or an object whose only member has the name and no
value. -/
inductive Named (name : String) : Json → Prop where
  | bare : Named name (.str name)
  | keyed : Named name (.obj [(name, .null)])

theorem Named.unique {name other : String} {v : Json} (h : Named name v) (h' : Named other v) :
    other = name := by
  cases h <;> cases h' <;> rfl

/-- A request is the one that a name stands for. -/
structure Reads (name : String) (r : Request) : Prop where
  start : r = .start ↔ name = "START"
  stop : r = .stop ↔ name = "STOP"
  status : r = .status ↔ name = "STATUS"
  /-- Every other name stands for nothing that is known. -/
  unknown : r = .unknown ↔ name ≠ "START" ∧ name ≠ "STOP" ∧ name ≠ "STATUS"

theorem reads_ofName (name : String) : Reads name (ofName name) := by
  unfold ofName
  by_cases hstart : name = "START"
  · subst hstart
    constructor <;> decide
  by_cases hstop : name = "STOP"
  · subst hstop
    constructor <;> decide
  by_cases hstatus : name = "STATUS"
  · subst hstatus
    constructor <;> decide
  · rw [if_neg hstart, if_neg hstop, if_neg hstatus]
    constructor <;> simp [hstart, hstop, hstatus]

theorem ofName_name (r : Request) : ofName r.name = r := by
  cases r <;> decide

/-- A value that stands for a request names it. -/
theorem decode_eq_ok_iff {v : Json} {r : Request} :
    decode v = .ok r ↔ ∃ name, Named name v ∧ ofName name = r := by
  constructor
  · intro h
    unfold decode at h
    split at h
    · cases h
      exact ⟨_, .bare, rfl⟩
    · split at h
      · cases h
        exact ⟨_, .keyed, rfl⟩
      · cases h
    · cases h
    · cases h
  · rintro ⟨name, hname, rfl⟩
    cases hname <;> rfl

theorem decode_encode (r : Request) : decode r.encode = .ok r :=
  decode_eq_ok_iff.2 ⟨r.name, .bare, ofName_name r⟩

end Request

/-! ## Commands -/

namespace Command

/-- A value spells a command that names a plugin and a request: an object with a member for each of
the two, or the list of the two. -/
inductive Spelled (plugin name : String) : Json → Prop where
  | object {members : Assoc Json} {w : Json}
    (hplugin : Assoc.get? pluginKey members = some (.str plugin))
    (hrequest : Assoc.get? requestKey members = some w) (hname : Request.Named name w) :
    Spelled plugin name (.obj members)
  | list {w : Json} (hname : Request.Named name w) : Spelled plugin name (.arr [.str plugin, w])

theorem Spelled.unique {plugin name other : String} {v : Json} (h : Spelled plugin name v)
    (h' : Spelled plugin other v) : other = name := by
  cases h with
  | object _ hrequest hname =>
    cases h' with
    | object _ hrequest' hname' =>
      rw [hrequest] at hrequest'
      cases hrequest'
      exact hname.unique hname'
  | list hname =>
    cases h' with
    | list hname' => exact hname.unique hname'

theorem decode_obj_eq_ok_iff {members : Assoc Json} {c : Command} :
    decode (.obj members) = .ok c ↔
      (∀ p ∈ members, checkMember p.1 p.2 = .ok ()) ∧
        Assoc.get? pluginKey members = some (.str c.plugin) ∧
        ∃ w, Assoc.get? requestKey members = some w ∧ Request.decode w = .ok c.request := by
  obtain ⟨plugin, request⟩ := c
  simp only [decode, bind_eq_ok_iff, Json.checkMembers_eq_ok_iff, Json.requiredText_eq_ok_iff]
  cases Assoc.get? requestKey members with
  | none => simp [throw, throwThe, MonadExceptOf.throw]
  | some w => simp [bind_eq_ok_iff, pure, Except.pure]

theorem decode_pair_eq_ok_iff {v w : Json} {c : Command} :
    decode (.arr [v, w]) = .ok c ↔ v = .str c.plugin ∧ Request.decode w = .ok c.request := by
  obtain ⟨plugin, request⟩ := c
  simp [decode, bind_eq_ok_iff, Json.asText_eq_ok_iff, pure, Except.pure]

/-- A value that is read as a command spells it. -/
theorem spelled_of_decode {v : Json} {c : Command} (h : decode v = .ok c) :
    ∃ name, Spelled c.plugin name v ∧ Request.ofName name = c.request := by
  cases v with
  | obj members =>
    obtain ⟨-, hplugin, w, hrequest, hw⟩ := decode_obj_eq_ok_iff.1 h
    obtain ⟨name, hname, hof⟩ := Request.decode_eq_ok_iff.1 hw
    exact ⟨name, .object hplugin hrequest hname, hof⟩
  | arr items =>
    match items with
    | [] | [v] => simp [decode, bind_eq_ok_iff, throw, throwThe, MonadExceptOf.throw] at h
    | [v, w] =>
      obtain ⟨rfl, hw⟩ := decode_pair_eq_ok_iff.1 h
      obtain ⟨name, hname, hof⟩ := Request.decode_eq_ok_iff.1 hw
      exact ⟨name, .list hname, hof⟩
    | _ :: _ :: _ :: _ =>
      simp [decode, bind_eq_ok_iff, throw, throwThe, MonadExceptOf.throw] at h
  | null | bool b | int n | float x | str s => cases h

/-- An object with the two members is read as the command, in whatever order its members come and
whatever others there are. -/
theorem decode_ofMembers {plugin name : String} {w : Json} {ms : List (String × Json)}
    (hname : Request.Named name w) (hplugin : (pluginKey, .str plugin) ∈ ms)
    (hrequest : (requestKey, w) ∈ ms) (hplugins : ∀ v, (pluginKey, v) ∈ ms → v = .str plugin)
    (hrequests : ∀ v, (requestKey, v) ∈ ms → v = w) :
    decode (Json.ofMembers ms) = .ok ⟨plugin, .ofName name⟩ := by
  have hw : Request.decode w = .ok (.ofName name) :=
    Request.decode_eq_ok_iff.2 ⟨name, hname, rfl⟩
  refine decode_obj_eq_ok_iff.2 ⟨?_, Assoc.get?_ofList_eq_some hplugin hplugins, w,
    Assoc.get?_ofList_eq_some hrequest hrequests, hw⟩
  rintro ⟨key, v⟩ hmem
  have hv : (key, v) ∈ ms := by
    rcases Assoc.mem_or_mem_of_mem_foldl_insert hmem with hnil | hv
    · cases hnil
    · exact hv
  unfold checkMember
  split
  next hkey =>
    rw [hrequests v (hkey ▸ hv), hw]
    rfl
  next =>
    split
    next hkey =>
      rw [hplugins v (hkey ▸ hv)]
      rfl
    next => rfl

theorem decode_list {plugin name : String} {w : Json} (hname : Request.Named name w) :
    decode (.arr [.str plugin, w]) = .ok ⟨plugin, .ofName name⟩ :=
  decode_pair_eq_ok_iff.2 ⟨rfl, Request.decode_eq_ok_iff.2 ⟨name, hname, rfl⟩⟩

theorem decode_encode (c : Command) : decode c.encode = .ok c := by
  obtain ⟨plugin, request⟩ := c
  cases request <;> rfl

/-- The value of a command is read back from its text. -/
theorem parse?_print_encode (c : Command) : Json.parse? c.encode.print = some c.encode := by
  refine Json.parse?_print ⟨by decide, ?_, trivial, trivial, trivial⟩
  simp only [Json.Sorted, List.map_cons, List.map_nil]
  decide

end Command

/-! ## Chat messages -/

namespace ChatMessage

theorem decode_encode (m : ChatMessage) : decode m.encode = .ok m := by
  obtain ⟨name, query, response⟩ := m
  cases query <;> cases response <;> rfl

theorem keys_member_sublist (name : String) (text : Option String) :
    ((member name text).map (·.1)).Sublist [name] := by
  cases text with
  | none => exact List.nil_sublist _
  | some s => exact List.Sublist.refl _

/-- The value of a message is read back from its text. -/
theorem parse?_print_encode (m : ChatMessage) : Json.parse? m.encode.print = some m.encode := by
  obtain ⟨name, query, response⟩ := m
  refine Json.parse?_print ⟨by decide, ?_, ?_⟩
  · have hsublist := ((keys_member_sublist "query" query).append
      (keys_member_sublist "response" response)).cons_cons "name"
    have hsorted : ["name", "query", "response"].Pairwise (· < ·) := by decide
    rw [← List.map_append] at hsublist
    exact hsorted.sublist hsublist
  · cases query <;> cases response <;> simp [member, Json.MembersReadable, Json.Readable]

end ChatMessage

/-! ## Both ways -/

/-- A command that starts and stops nothing is taken from its queue, and that is all. -/
theorem Command.taken_of_reads {σ : Type} {name : String} {c : Command}
    (h : Request.Reads name c.request) (hstart : name ≠ "START") (hstop : name ≠ "STOP")
    {t fresh : Nat} {s : PluginState σ} {q : Queue Command}
    (hnext : s.commands.next? = some (c, q)) :
    ListenTask.receive.step? t fresh s = some ⟨s.withCommands q, .listen .receive, none⟩ := by
  refine ListenTask.step?_of_ignored hnext ?_
  cases hrequest : c.request with
  | start => exact absurd (h.start.1 hrequest) hstart
  | stop => exact absurd (h.stop.1 hrequest) hstop
  | status | unknown => rw [transition?, hrequest]

/-- What is written is read as the same message, from its value and from its text. A value that is
read as a command is written and read as the same command; it spells the plugin and one name, and
the command asks for what the name stands for. If that is neither a start nor a stop, the listener
takes it and does nothing. And what spells a command is read as the command, be it a list or an
object with its members in any order and others among them. -/
theorem messages_are_read_as_written {σ : Type} :
    (∀ c : Command, Command.decode c.encode = .ok c ∧
        (Json.parse? c.encode.print).map Command.decode = some (.ok c)) ∧
      (∀ m : ChatMessage, ChatMessage.decode m.encode = .ok m ∧
        (Json.parse? m.encode.print).map ChatMessage.decode = some (.ok m)) ∧
      (∀ v c, Command.decode v = .ok c →
        Command.decode c.encode = Command.decode v ∧
          ∃ name, Command.Spelled c.plugin name v ∧
            (∀ other, Command.Spelled c.plugin other v → other = name) ∧
            Request.Reads name c.request ∧
            (name ≠ "START" → name ≠ "STOP" →
              ∀ (t fresh : Nat) (s : PluginState σ) (q : Queue Command),
                s.commands.next? = some (c, q) →
                  ListenTask.receive.step? t fresh s =
                    some ⟨s.withCommands q, .listen .receive, none⟩)) ∧
      ∀ plugin name w, Request.Named name w →
        Command.decode (.arr [.str plugin, w]) = .ok ⟨plugin, .ofName name⟩ ∧
          ∀ ms : List (String × Json), (Command.pluginKey, .str plugin) ∈ ms →
            (Command.requestKey, w) ∈ ms →
            (∀ v, (Command.pluginKey, v) ∈ ms → v = .str plugin) →
            (∀ v, (Command.requestKey, v) ∈ ms → v = w) →
              Command.decode (Json.ofMembers ms) = .ok ⟨plugin, .ofName name⟩ := by
  refine ⟨fun c => ⟨c.decode_encode, ?_⟩, fun m => ⟨m.decode_encode, ?_⟩, fun v c h => ?_,
    fun plugin name w hname => ⟨Command.decode_list hname, fun ms => ?_⟩⟩
  · rw [c.parse?_print_encode, Option.map_some, c.decode_encode]
  · rw [m.parse?_print_encode, Option.map_some, m.decode_encode]
  · obtain ⟨name, hspelled, hof⟩ := Command.spelled_of_decode h
    have hreads : Request.Reads name c.request := hof ▸ Request.reads_ofName name
    exact ⟨c.decode_encode.trans h.symm, name, hspelled, fun _ hother => hspelled.unique hother,
      hreads, fun hstart hstop t fresh s q => Command.taken_of_reads hreads hstart hstop⟩
  · exact Command.decode_ofMembers hname

/-- A host that is newer asks for something else, in an object with a member that is new as well.
The command is read as one that is not known, and a listener that finds it takes it. -/
theorem newer_command_is_taken :
    let c : Command := ⟨"p1", .unknown⟩
    let v := Json.ofMembers [("zone", .int 5), (Command.pluginKey, .str "p1"),
      (Command.requestKey, .obj [("RELOAD", .null)])]
    let s := ((Instance.initial Instance.sampleSetup 16 Store.Tree.empty).act (.command c)).state
    Command.decode v = .ok c ∧ Command.decode c.encode = .ok c ∧
      ∃ q, ListenTask.receive.step? 2 3 s = some ⟨s.withCommands q, .listen .receive, none⟩ := by
  intro c v s
  obtain ⟨-, -, hread, hspelled⟩ := messages_are_read_as_written (σ := Store.Tree)
  have hv : Command.decode v = .ok c := by
    refine (hspelled "p1" "RELOAD" _ .keyed).2 _ ?_ ?_ ?_ ?_ <;>
      simp [Command.pluginKey, Command.requestKey]
  obtain ⟨hagain, name, hname, hunique, hreads, htaken⟩ := hread v c hv
  have hreload : "RELOAD" = name :=
    hunique "RELOAD" (.object rfl rfl .keyed)
  obtain ⟨q, hnext⟩ : ∃ q, s.commands.next? = some (c, q) := ⟨_, rfl⟩
  exact ⟨hv, hagain.trans hv, q,
    htaken (hreload ▸ by decide) (hreload ▸ by decide) 2 3 s q hnext⟩

end PluginKernel
