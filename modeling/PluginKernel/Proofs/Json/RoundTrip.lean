import PluginKernel.Json.Parser
import PluginKernel.Proofs.Json.Scalars

/-!
# JSON text is read back

A value without binary numbers is read from its text as the same value, if its whole numbers fit 64
bits, its members are sorted and no more containers are open at once than reading allows.

The text is cut into the tokens of the value, and the machine that reads them delivers the value to
the innermost container that was open before. Both are inductions over the value with the items and
members of its containers; what carries them is that the rest of the text, and the frames below, are
arbitrary.
-/

namespace PluginKernel.Json

open Text

/-! ## Values that can be read back -/

/-- The names of members are sorted. -/
def Sorted (ms : List (String × Json)) : Prop := (ms.map (·.1)).Pairwise (· < ·)

mutual

/-- A value can be read back where so many more containers may be opened. -/
def Readable (room : Nat) : Json → Prop
  | .null | .bool _ | .str _ => True
  | .int n => int64Min ≤ n ∧ n ≤ uint64Max
  | .float _ => False
  | .arr items => 0 < room ∧ ItemsReadable (room - 1) items
  | .obj ms => 0 < room ∧ Sorted ms ∧ MembersReadable (room - 1) ms
termination_by structural v => v

/-- All items can be read back. -/
def ItemsReadable (room : Nat) : List Json → Prop
  | [] => True
  | v :: vs => Readable room v ∧ ItemsReadable room vs
termination_by structural vs => vs

/-- All members can be read back. -/
def MembersReadable (room : Nat) : List (String × Json) → Prop
  | [] => True
  | (_, v) :: ms => Readable room v ∧ MembersReadable room ms
termination_by structural ms => ms

end

/-! ## Cutting a text into tokens -/

mutual

/-- The tokens of a value. -/
def tokens : Json → List Token
  | .str s => [.text s]
  | .arr [] => [.openList, .closeList]
  | .arr (v :: vs) => .openList :: (tokens v ++ (itemTokens vs ++ [.closeList]))
  | .obj [] => [.openObject, .closeObject]
  | .obj ((k, v) :: ms) =>
    .openObject :: .text k :: .colon :: (tokens v ++ (memberTokens ms ++ [.closeObject]))
  | v => [.scalar v]
termination_by structural v => v

/-- The tokens of further items, each behind a comma. -/
def itemTokens : List Json → List Token
  | [] => []
  | v :: vs => .comma :: (tokens v ++ itemTokens vs)
termination_by structural vs => vs

/-- The tokens of further members, each behind a comma. -/
def memberTokens : List (String × Json) → List Token
  | [] => []
  | (k, v) :: ms => .comma :: .text k :: .colon :: (tokens v ++ memberTokens ms)
termination_by structural ms => ms

end

theorem ofChars?_of_take? {c : Char} {cs rest : List Char} {t : Token} {ts : List Token}
    (hc : Token.isSpace c = false) (h : Token.take? (c :: cs) = some (t, rest))
    (hts : Token.ofChars? rest = some ts) : Token.ofChars? (c :: cs) = some (t :: ts) := by
  have hdrop : (c :: cs).dropWhile Token.isSpace = c :: cs :=
    List.dropWhile_cons_of_neg (by simp [hc])
  rw [Token.ofChars?.eq_def, hdrop, if_neg (by simp), h]
  simp only [hts, Option.map_some]

theorem ofChars?_stringChars (s : String) {rest : List Char} {ts : List Token}
    (hts : Token.ofChars? rest = some ts) :
    Token.ofChars? (stringChars s ++ rest) = some (.text s :: ts) :=
  ofChars?_of_take? (by decide) (take?_stringChars s rest) hts

theorem ofChars?_signedDigits {n : Int} (h : int64Min ≤ n ∧ n ≤ uint64Max) {rest : List Char}
    {ts : List Token} (hrest : Stops rest) (hts : Token.ofChars? rest = some ts) :
    Token.ofChars? (signedDigits n ++ rest) = some (.scalar (.int n) :: ts) := by
  have htake := take?_signedDigits h.1 h.2 hrest
  obtain ⟨c, cs, hcs, hc⟩ := exists_cons_signedDigits n
  rw [hcs, List.cons_append] at htake ⊢
  refine ofChars?_of_take? ?_ htake hts
  cases hspace : Token.isSpace c with
  | false => rfl
  | true =>
    simp only [Token.isSpace, Bool.or_eq_true, beq_iff_eq] at hspace
    rcases hspace with ((rfl | rfl) | rfl) | rfl <;> rcases hc with hc | hc <;>
      exact absurd hc (by decide)

theorem stops_itemChars (vs : List Json) {rest : List Char} (h : Stops rest) :
    Stops (itemChars vs ++ rest) := by
  cases vs with
  | nil => exact h
  | cons v vs => exact stops_cons (Or.inl rfl) _

theorem stops_memberChars (ms : List (String × Json)) {rest : List Char} (h : Stops rest) :
    Stops (memberChars ms ++ rest) := by
  cases ms with
  | nil => exact h
  | cons p ms => exact stops_cons (Or.inl rfl) _

mutual

/-- The text of a value is cut into the tokens of the value. -/
theorem ofChars?_chars {room : Nat} {rest : List Char} {ts : List Token} :
    ∀ (v : Json), Readable room v → Stops rest → Token.ofChars? rest = some ts →
      Token.ofChars? (chars v ++ rest) = some (tokens v ++ ts)
  | .null, _, _, hts => ofChars?_of_take? (by decide) rfl hts
  | .bool true, _, _, hts => ofChars?_of_take? (by decide) rfl hts
  | .bool false, _, _, hts => ofChars?_of_take? (by decide) rfl hts
  | .int n, h, hrest, hts => ofChars?_signedDigits h hrest hts
  | .float _, h, _, _ => h.elim
  | .str s, _, _, hts => ofChars?_stringChars s hts
  | .arr [], _, _, hts =>
    ofChars?_of_take? (by decide) rfl (ofChars?_of_take? (by decide) rfl hts)
  | .arr (v :: vs), h, _, hts => by
    have hstops : Stops (']' :: rest) := stops_cons (Or.inr (Or.inl rfl)) rest
    have hclose : Token.ofChars? (']' :: rest) = some (.closeList :: ts) :=
      ofChars?_of_take? (by decide) rfl hts
    have hvs := ofChars?_itemChars vs h.2.2 hstops hclose
    have hv := ofChars?_chars v h.2.1 (stops_itemChars vs hstops) hvs
    simp only [chars, tokens, List.cons_append, List.append_assoc, List.nil_append]
    exact ofChars?_of_take? (by decide) rfl hv
  | .obj [], _, _, hts =>
    ofChars?_of_take? (by decide) rfl (ofChars?_of_take? (by decide) rfl hts)
  | .obj ((k, v) :: ms), h, _, hts => by
    have hstops : Stops ('\x7d' :: rest) := stops_cons (Or.inr (Or.inr rfl)) rest
    have hclose : Token.ofChars? ('\x7d' :: rest) = some (.closeObject :: ts) :=
      ofChars?_of_take? (by decide) rfl hts
    have hms := ofChars?_memberChars ms h.2.2.2 hstops hclose
    have hv := ofChars?_chars v h.2.2.1 (stops_memberChars ms hstops) hms
    have hname := ofChars?_stringChars k (ofChars?_of_take? (c := ':') (by decide) rfl hv)
    simp only [chars, tokens, List.cons_append, List.append_assoc, List.nil_append]
    exact ofChars?_of_take? (by decide) rfl hname

/-- The text of further items is cut into their tokens. -/
theorem ofChars?_itemChars {room : Nat} {rest : List Char} {ts : List Token} :
    ∀ (vs : List Json), ItemsReadable room vs → Stops rest → Token.ofChars? rest = some ts →
      Token.ofChars? (itemChars vs ++ rest) = some (itemTokens vs ++ ts)
  | [], _, _, hts => hts
  | v :: vs, h, hrest, hts => by
    have hvs := ofChars?_itemChars vs h.2 hrest hts
    have hv := ofChars?_chars v h.1 (stops_itemChars vs hrest) hvs
    simp only [itemChars, itemTokens, List.cons_append, List.append_assoc]
    exact ofChars?_of_take? (by decide) rfl hv

/-- The text of further members is cut into their tokens. -/
theorem ofChars?_memberChars {room : Nat} {rest : List Char} {ts : List Token} :
    ∀ (ms : List (String × Json)), MembersReadable room ms → Stops rest →
      Token.ofChars? rest = some ts →
      Token.ofChars? (memberChars ms ++ rest) = some (memberTokens ms ++ ts)
  | [], _, _, hts => hts
  | (k, v) :: ms, h, hrest, hts => by
    have hms := ofChars?_memberChars ms h.2 hrest hts
    have hv := ofChars?_chars v h.1 (stops_memberChars ms hrest) hms
    have hname := ofChars?_stringChars k (ofChars?_of_take? (c := ':') (by decide) rfl hv)
    simp only [memberChars, memberTokens, List.cons_append, List.append_assoc]
    exact ofChars?_of_take? (by decide) rfl hname

end

/-! ## Reading the tokens -/

namespace Reading

/-- What reading makes of some tokens. -/
def run (r : Reading) (ts : List Token) : Option Reading := ts.foldlM step? r

theorem run_cons {r r' : Reading} {t : Token} (ts : List Token) (h : r.step? t = some r') :
    r.run (t :: ts) = r'.run ts := by
  rw [run, List.foldlM_cons, h]
  rfl

theorem run_append {r r' : Reading} {ts : List Token} (us : List Token) (h : r.run ts = some r') :
    r.run (ts ++ us) = r'.run us := by
  rw [run, List.foldlM_append, show ts.foldlM step? r = some r' from h]
  rfl

theorem step?_openList {frames : List Frame} (h : frames.length + 1 < depthLimit) :
    step? ⟨frames, .value⟩ .openList = some ⟨.list [] :: frames, .firstItem⟩ := if_pos h

theorem step?_openObject {frames : List Frame} (h : frames.length + 1 < depthLimit) :
    step? ⟨frames, .value⟩ .openObject = some ⟨.object [] "" :: frames, .firstName⟩ := if_pos h

/-- A member whose name follows all others is added behind them. -/
theorem insert_of_sorted {ms : List (String × Json)} {k : String} {v : Json}
    (h : ∀ p ∈ ms, p.1 < k) : Assoc.insert k v ms = ms ++ [(k, v)] := by
  induction ms with
  | nil => rfl
  | cons p ms ih =>
    have hp := h p List.mem_cons_self
    have hlt : ¬k < p.1 := fun hk => String.lt_irrefl _ (String.lt_trans hp hk)
    have hne : ¬p.1 = k := fun heq => String.lt_irrefl k (heq ▸ hp)
    rw [Assoc.insert, if_neg hlt, if_neg hne, ih fun q hq => h q (List.mem_cons_of_mem _ hq)]
    rfl

/-- The first token of a value closes no container, and is no name where a name may follow. -/
theorem run_firstItem {items : List Json} {frames : List Frame} (v : Json) (ts : List Token) :
    run ⟨.list items :: frames, .firstItem⟩ (tokens v ++ ts) =
      run ⟨.list items :: frames, .value⟩ (tokens v ++ ts) := by
  have hstep : ∀ t us, t ≠ .closeList →
      run ⟨.list items :: frames, .firstItem⟩ (t :: us) =
        run ⟨.list items :: frames, .value⟩ (t :: us) := by
    intro t us ht
    rw [run, run, List.foldlM_cons, List.foldlM_cons]
    have hclose : close? (.list items :: frames) t = none := by
      cases t <;> first | rfl | exact absurd rfl ht
    simp only [step?, hclose, Option.none_or]
  unfold tokens
  split <;> exact hstep _ _ (fun h => by cases h)

mutual

/-- The tokens of a value deliver the value. -/
theorem run_tokens {room : Nat} : ∀ (v : Json) (frames : List Frame), Readable room v →
    frames.length + room < depthLimit → run ⟨frames, .value⟩ (tokens v) = some (deliver v frames)
  | .null, _, _, _ => rfl
  | .bool _, _, _, _ => rfl
  | .int _, _, _, _ => rfl
  | .float _, _, h, _ => h.elim
  | .str _, _, _, _ => rfl
  | .arr [], frames, h, hroom => by
    have hpos := h.1
    rw [tokens, run_cons _ (step?_openList (by omega))]
    rfl
  | .arr (v :: vs), frames, h, hroom => by
    have hpos := h.1
    have hv := run_tokens v (.list [] :: frames) h.2.1 (by simp only [List.length_cons]; omega)
    have hvs := run_itemTokens vs [v] frames h.2.2 (by omega)
    rw [tokens, run_cons _ (step?_openList (by omega)), run_firstItem, run_append _ hv]
    exact hvs
  | .obj [], frames, h, hroom => by
    have hpos := h.1
    rw [tokens, run_cons _ (step?_openObject (by omega))]
    rfl
  | .obj ((k, v) :: ms), frames, h, hroom => by
    have hpos := h.1
    have hv := run_tokens v (.object [] k :: frames) h.2.2.1
      (by simp only [List.length_cons]; omega)
    have hms := run_memberTokens ms [(k, v)] k frames h.2.2.2 h.2.1 (by omega)
    rw [tokens, run_cons _ (step?_openObject (by omega)), run_cons _ rfl, run_cons _ rfl,
      run_append _ hv]
    exact hms

/-- The tokens of further items, and the bracket behind them, deliver the list. -/
theorem run_itemTokens {room : Nat} : ∀ (vs items : List Json) (frames : List Frame),
    ItemsReadable room vs → frames.length + 1 + room < depthLimit →
    run ⟨.list items :: frames, .separator⟩ (itemTokens vs ++ [.closeList]) =
      some (deliver (.arr (items.reverse ++ vs)) frames)
  | [], items, frames, _, _ => by
    rw [List.append_nil]
    rfl
  | v :: vs, items, frames, h, hroom => by
    have hv := run_tokens v (.list items :: frames) h.1 (by simp only [List.length_cons]; omega)
    have hvs := run_itemTokens vs (v :: items) frames h.2 hroom
    rw [itemTokens, List.cons_append, List.append_assoc, run_cons _ rfl, run_append _ hv]
    rw [List.reverse_cons, List.append_assoc, List.singleton_append] at hvs
    exact hvs

/-- The tokens of further members, and the brace behind them, deliver the object. -/
theorem run_memberTokens {room : Nat} : ∀ (ms read : List (String × Json)) (name : String)
    (frames : List Frame), MembersReadable room ms → Sorted (read ++ ms) →
    frames.length + 1 + room < depthLimit →
    run ⟨.object read name :: frames, .separator⟩ (memberTokens ms ++ [.closeObject]) =
      some (deliver (.obj (read ++ ms)) frames)
  | [], read, name, frames, _, _, _ => by
    rw [List.append_nil]
    rfl
  | (k, v) :: ms, read, name, frames, h, hsorted, hroom => by
    have hlt : ∀ p ∈ read, p.1 < k := by
      intro p hp
      rw [Sorted, List.map_append, List.pairwise_append] at hsorted
      exact hsorted.2.2 p.1 (List.mem_map_of_mem hp) k List.mem_cons_self
    have hv := run_tokens v (.object read k :: frames) h.1
      (by simp only [List.length_cons]; omega)
    rw [deliver, insert_of_sorted hlt] at hv
    have hassoc : read ++ (k, v) :: ms = (read ++ [(k, v)]) ++ ms := by simp
    rw [hassoc] at hsorted ⊢
    have hms := run_memberTokens ms (read ++ [(k, v)]) k frames h.2 hsorted hroom
    rw [memberTokens, List.cons_append, List.cons_append, List.cons_append, List.append_assoc,
      run_cons _ rfl, run_cons _ rfl, run_cons _ rfl, run_append _ hv]
    exact hms

end

end Reading

/-- A value without binary numbers is read back from its text, if its numbers fit 64 bits, its
members are sorted and no more than 127 containers are open at once. -/
theorem parse?_print {v : Json} (h : Readable 127 v) : parse? v.print = some v := by
  have hempty : Token.ofChars? [] = some [] := by
    rw [Token.ofChars?.eq_def]
    rfl
  have htokens := ofChars?_chars v h stops_nil hempty
  have hrun := Reading.run_tokens v [] h (by decide)
  rw [List.append_nil, List.append_nil] at htokens
  rw [parse?, print, String.toList_ofList, htokens, Option.bind_some, ofTokens?]
  rw [Reading.run] at hrun
  rw [show Reading.start = ⟨[], .value⟩ from rfl, hrun]
  rfl

end PluginKernel.Json
