import BuildQueue.Json.Reader
import BuildQueue.Proofs.Json.Token

/-!
# JSON values read back

A value is writable if its strings are sequences of characters and its numbers integers. A writable
value is read back from its compact form, wherever in a text this form stands.
-/

namespace BuildQueue.Json

/-! ## Reading token by token -/

namespace Token

/-- The first token is taken, and then the others. -/
theorem ofChars?_cons {c : Char} {cs : List Char} (hblank : isBlank c = false) :
    ofChars? (c :: cs) =
      (first? c cs).bind fun (token, rest) ↦ (ofChars? rest).map (token :: ·) := by
  rw [ofChars?, if_neg (by simp [hblank])]
  split
  next hfirst => rw [hfirst, Option.bind_none]
  next hfirst => rw [hfirst, Option.bind_some]

theorem ofChars?_blank {c : Char} (hblank : isBlank c = true) (cs : List Char) :
    ofChars? (c :: cs) = ofChars? cs := by
  rw [ofChars?, if_pos hblank]

end Token

namespace Reading

/-- What is read in the end if a text goes on like this. -/
def readOn? (r : Reading) (cs : List Char) : Option Json :=
  (Token.ofChars? cs).bind fun tokens ↦ (tokens.foldlM next r).bind finish?

theorem parse?_eq (cs : List Char) : parse? cs = (value []).readOn? cs := rfl

theorem readOn?_nil (r : Reading) : r.readOn? [] = r.finish? := by
  rw [readOn?, Token.ofChars?]
  rfl

theorem readOn?_blank (r : Reading) {c : Char} (hblank : Token.isBlank c = true) (cs : List Char) :
    r.readOn? (c :: cs) = r.readOn? cs := by
  rw [readOn?, Token.ofChars?_blank hblank]
  rfl

/-- A token is taken and then the rest is read. -/
theorem readOn?_token (r : Reading) {c : Char} {cs rest : List Char} {token : Token}
    (hblank : Token.isBlank c = false) (hfirst : Token.first? c cs = some (token, rest)) :
    r.readOn? (c :: cs) = (r.next token).bind (·.readOn? rest) := by
  rw [readOn?, Token.ofChars?_cons hblank, hfirst, Option.bind_some, Option.bind_map]
  cases hnext : r.next token with
  | none => simp [hnext]
  | some r' => simp [hnext, readOn?]

theorem readOn?_punctuation {r r' : Reading} {c : Char} {token : Token}
    (hblank : Token.isBlank c = false) (hc : Token.punctuation? c = some token)
    (hnext : r.next token = some r') (cs : List Char) : r.readOn? (c :: cs) = r'.readOn? cs := by
  rw [r.readOn?_token hblank (Token.first?_punctuation hc cs), hnext, Option.bind_some]

/-- A value may start here, and these containers are open then. -/
def Accepts (r : Reading) (stack : List Frame) : Prop :=
  ∀ token, token ≠ .closeBracket → r.next token = start stack token

/-- A name may stand here, after these members. -/
def AcceptsName (r : Reading) (done : List (Text × Json)) (stack : List Frame) : Prop :=
  ∀ n, r.next (.string n) = some (colon done n stack)

theorem readOn?_name {r : Reading} {done : List (Text × Json)} {stack : List Frame}
    (hr : r.AcceptsName done stack) (n : String) (rest : List Char) :
    r.readOn? (writeString n ++ rest) = (colon done (some n) stack).readOn? rest := by
  have htext : writeString n ++ rest = '"' :: (n.toList.flatMap writeChar ++ '"' :: rest) := by
    simp [writeString]
  rw [htext, r.readOn?_token rfl (Token.first?_string n rest), hr, Option.bind_some]

theorem accepts_value (stack : List Frame) : (value stack).Accepts stack := fun _ _ ↦ rfl

theorem accepts_items (stack : List Frame) : (items stack).Accepts (.array [] :: stack) := by
  intro token hopen
  cases token with
  | closeBracket => exact absurd rfl hopen
  | _ => rfl

end Reading

/-! ## Writable values -/

/-- All strings are sequences of characters, all numbers are integers. -/
inductive Writable : Json → Prop
  | null : Writable .null
  | boolean (b : Bool) : Writable (.boolean b)
  | integer (n : Int) : Writable (ofInt n)
  | string (s : String) : Writable (ofString s)
  | array {items : List Json} (h : ∀ j ∈ items, Writable j) : Writable (.array items)
  | members {ms : List (String × Json)} (h : ∀ m ∈ ms, Writable m.2) : Writable (ofMembers ms)

theorem compactItems_eq (items : List Json) : compactItems items = items.map compact := by
  induction items with
  | nil => rfl
  | cons j items ih => rw [compactItems, ih, List.map_cons]

theorem compactMembers_eq (ms : List (String × Json)) :
    compactMembers (ms.map fun m ↦ (some m.1, m.2)) =
      ms.map fun m ↦ writeString m.1 ++ ':' :: m.2.compact := by
  induction ms with
  | nil => rfl
  | cons m ms ih =>
    rw [List.map_cons, compactMembers, ih, List.map_cons]
    rfl

theorem separated_cons_cons (separator cs cs' : List Char) (css : List (List Char)) :
    separated separator (cs :: cs' :: css) =
      cs ++ (separator ++ separated separator (cs' :: css)) :=
  List.append_assoc _ _ _

open Reading

/-- Where a value may start, the compact form of this one is read as it. -/
def ReadsBack (j : Json) : Prop :=
  ∀ (r : Reading) (stack : List Frame) (rest : List Char), r.Accepts stack → Delimited rest →
    r.readOn? (j.compact ++ rest) = (after j stack).readOn? rest

theorem ReadsBack.of_token {j : Json} {token : Token} {c : Char} {cs : List Char}
    (hcompact : j.compact = c :: cs) (hopen : token ≠ .closeBracket)
    (hstart : ∀ stack, start stack token = some (after j stack))
    (hfirst : ∀ rest, Delimited rest →
      Token.isBlank c = false ∧ Token.first? c (cs ++ rest) = some (token, rest)) :
    ReadsBack j := by
  intro r stack rest hr hrest
  obtain ⟨hblank, hfirst⟩ := hfirst rest hrest
  rw [hcompact, List.cons_append, r.readOn?_token hblank hfirst, hr token hopen, hstart,
    Option.bind_some]

/-- How the entries of a container are read: where an entry may start, what it leads to, and how
reading goes on after it. -/
structure EntryReading (α : Type) where
  text : α → List Char
  close : Char
  starts : List α → Reading → Prop
  ended : List α → α → Reading
  resumed : List α → Reading
  closed : List α → Reading
  close_delimits : ∀ rest, Delimited (close :: rest)
  starts_resumed : ∀ done, starts done (resumed done)
  comma : ∀ done a rest, (ended done a).readOn? (',' :: rest) = (resumed (done ++ [a])).readOn? rest
  closing : ∀ done a rest,
    (ended done a).readOn? (close :: rest) = (closed (done ++ [a])).readOn? rest

/-- Entries are read one after the other, and then the container is closed. -/
theorem EntryReading.readOn?_separated {α : Type} (e : EntryReading α) {entries : List α}
    (hne : entries ≠ [])
    (hentries : ∀ a ∈ entries, ∀ done r rest, e.starts done r → Delimited rest →
      r.readOn? (e.text a ++ rest) = (e.ended done a).readOn? rest)
    {done : List α} {r : Reading} (hr : e.starts done r) (rest : List Char) :
    r.readOn? (separated [','] (entries.map e.text) ++ e.close :: rest) =
      (e.closed (done ++ entries)).readOn? rest := by
  induction entries generalizing done r with
  | nil => exact absurd rfl hne
  | cons a entries ih =>
    have ha := hentries a List.mem_cons_self
    cases entries with
    | nil =>
      calc r.readOn? (e.text a ++ e.close :: rest)
        _ = (e.ended done a).readOn? (e.close :: rest) := ha _ _ _ hr (e.close_delimits rest)
        _ = (e.closed (done ++ [a])).readOn? rest := e.closing done a rest
    | cons b entries =>
      have hlater := ih (List.cons_ne_nil b entries)
        (fun c hc ↦ hentries c (List.mem_cons_of_mem a hc)) (e.starts_resumed (done ++ [a]))
      rw [List.append_cons done, ← hlater, List.map_cons, List.map_cons, separated_cons_cons,
        List.append_assoc]
      calc r.readOn? (e.text a ++ ',' :: (separated [','] ((b :: entries).map e.text) ++
            e.close :: rest))
        _ = (e.ended done a).readOn? (',' :: _) := ha _ _ _ hr (delimited_cons rfl rfl _)
        _ = _ := e.comma done a _

/-- The items of an array. -/
def EntryReading.items (stack : List Frame) : EntryReading Json where
  text := compact
  close := ']'
  starts done r := r.Accepts (.array done.reverse :: stack)
  ended done j := after j (.array done.reverse :: stack)
  resumed done := value (.array done.reverse :: stack)
  closed done := after (.array done) stack
  close_delimits := delimited_cons rfl rfl
  starts_resumed _ := accepts_value _
  comma done j rest := by
    rw [List.reverse_append]
    exact readOn?_punctuation rfl rfl rfl rest
  closing done j rest := by
    have hdone : done ++ [j] = (j :: done.reverse).reverse := by simp
    rw [hdone]
    exact readOn?_punctuation rfl rfl rfl rest

/-- Members as they are kept while their object is read. -/
def named (ms : List (String × Json)) : List (Text × Json) := ms.map fun m ↦ (some m.1, m.2)

/-- The members of an object. -/
def EntryReading.members (stack : List Frame) : EntryReading (String × Json) where
  text m := writeString m.1 ++ ':' :: m.2.compact
  close := '\x7d'
  starts done r := r.AcceptsName (named done).reverse stack
  ended done m := after m.2 (.object (named done).reverse (some m.1) :: stack)
  resumed done := name (named done).reverse stack
  closed done := after (.object (named done)) stack
  close_delimits := delimited_cons rfl rfl
  starts_resumed _ _ := rfl
  comma done m rest := by
    have hdone : (named (done ++ [m])).reverse = (some m.1, m.2) :: (named done).reverse := by
      simp [named]
    rw [hdone]
    exact readOn?_punctuation rfl rfl rfl rest
  closing done m rest := by
    have hdone : named (done ++ [m]) = ((some m.1, m.2) :: (named done).reverse).reverse := by
      simp [named]
    rw [hdone]
    exact readOn?_punctuation rfl rfl rfl rest

/-- A writable value is read back from its compact form. -/
theorem Writable.readsBack {j : Json} (h : j.Writable) : ReadsBack j := by
  induction h with
  | null => exact .of_token rfl (by decide) (fun _ ↦ rfl) fun rest ↦ Token.first?_word rfl
  | boolean b =>
    cases b with
    | true => exact .of_token rfl (by decide) (fun _ ↦ rfl) fun rest ↦ Token.first?_word rfl
    | false => exact .of_token rfl (by decide) (fun _ ↦ rfl) fun rest ↦ Token.first?_word rfl
  | integer n =>
    obtain ⟨c, cs, hcs⟩ := List.exists_cons_of_ne_nil (Decimal.ofInt_ne_nil n)
    exact .of_token hcs (by simp) (fun _ ↦ rfl) fun rest ↦ Token.first?_integer hcs
  | string s =>
    have hfirst (rest : List Char) : Token.isBlank '"' = false ∧
        Token.first? '"' (s.toList.flatMap writeChar ++ ['"'] ++ rest) =
          some (.string (some s), rest) := by
      rw [List.append_assoc]
      exact ⟨rfl, Token.first?_string s rest⟩
    exact .of_token rfl (by simp) (fun _ ↦ rfl) fun rest _ ↦ hfirst rest
  | @array items h ih =>
    intro r stack rest hr hrest
    have hopen (rest : List Char) : r.readOn? ('[' :: rest) = (Reading.items stack).readOn? rest :=
      readOn?_punctuation rfl rfl (hr _ (by decide)) rest
    rw [compact, compactItems_eq, List.cons_append, List.cons_append, List.append_assoc, hopen]
    cases items with
    | nil => exact readOn?_punctuation rfl rfl rfl rest
    | cons j items =>
      have hstarts : (EntryReading.items stack).starts [] (Reading.items stack) :=
        accepts_items stack
      exact (EntryReading.items stack).readOn?_separated (List.cons_ne_nil j items)
        (fun k hk done r rest hr hrest ↦ ih k hk r _ rest hr hrest) hstarts rest
  | @members ms h ih =>
    intro r stack rest hr hrest
    have hopen (rest : List Char) :
        r.readOn? ('\x7b' :: rest) = (Reading.members stack).readOn? rest :=
      readOn?_punctuation rfl rfl (hr _ (by decide)) rest
    have hcompact : (ofMembers ms).compact = '\x7b' :: separated [','] (ms.map fun m ↦
        writeString m.1 ++ ':' :: m.2.compact) ++ ['\x7d'] := by
      rw [← compactMembers_eq]
      rfl
    rw [hcompact, List.cons_append, List.cons_append, List.append_assoc, hopen]
    cases ms with
    | nil => exact readOn?_punctuation rfl rfl rfl rest
    | cons m ms =>
      have hstarts : (EntryReading.members stack).starts [] (Reading.members stack) := fun _ ↦ rfl
      refine (EntryReading.members stack).readOn?_separated (List.cons_ne_nil m ms) ?_ hstarts rest
      intro k hk done r rest hr hrest
      change r.readOn? (writeString k.1 ++ ':' :: k.2.compact ++ rest) = _
      rw [List.append_assoc, readOn?_name hr, List.cons_append,
        readOn?_punctuation rfl rfl (by rfl) (k.2.compact ++ rest)]
      exact ih k hk _ _ rest (accepts_value _) hrest

/-- The text of a writable value is read as this value. -/
theorem Writable.parse?_compact {j : Json} (h : j.Writable) : parse? j.compact = some j := by
  have hread := h.readsBack _ [] [] (accepts_value []) delimited_nil
  rw [List.append_nil, ← parse?_eq, readOn?_nil] at hread
  exact hread

end BuildQueue.Json
