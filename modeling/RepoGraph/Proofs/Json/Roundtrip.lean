import RepoGraph.Proofs.Json.Tokens

/-!
# Written values are read back

The text of a value is cut into the words of the value, and the words of a value are read as that
value wherever it stands.
-/

namespace RepoGraph

namespace JsonValue

open JsonToken

/-- A value with natural numbers only, and with no text that was read from half of a surrogate
pair. -/
inductive IsPlain : JsonValue → Prop
  | null : IsPlain .null
  | bool (b : Bool) : IsPlain (.bool b)
  | ofNat (n : Nat) : IsPlain (.ofNat n)
  | ofString (s : String) : IsPlain (.ofString s)
  | array {items : List JsonValue} (hitems : ∀ item ∈ items, IsPlain item) :
      IsPlain (.array items)
  | object {members : List (Option String × JsonValue)} (hnames : ∀ m ∈ members, m.1.isSome)
      (hvalues : ∀ m ∈ members, IsPlain m.2) : IsPlain (.object members)

mutual

def words : JsonValue → List JsonToken
  | null => [.null]
  | bool b => [.bool b]
  | number numeral => [.number numeral]
  | text content => [.text content]
  | array [] => [.openArray, .closeArray]
  | array (item :: items) => .openArray :: (words item ++ itemWords items ++ [.closeArray])
  | object [] => [.openObject, .closeObject]
  | object ((name, value) :: members) =>
    .openObject :: .text name :: .colon ::
      (words value ++ memberWords members ++ [.closeObject])

def itemWords : List JsonValue → List JsonToken
  | [] => []
  | item :: items => .comma :: (words item ++ itemWords items)

def memberWords : List (Option String × JsonValue) → List JsonToken
  | [] => []
  | (name, value) :: members =>
    .comma :: .text name :: .colon :: (words value ++ memberWords members)

end

/-- Whether the text of a value is cut into the words of the value, whatever follows that ends a
number. -/
def Scans (value : JsonValue) : Prop :=
  ∀ (layout : JsonLayout) (depth : Nat) (done : List JsonToken) (s : List Char), EndsNumber s →
    scanFrom? done (value.write layout depth ++ s) = scanFrom? (value.words.reverse ++ done) s

private theorem endsNumber_gap (layout : JsonLayout) (depth : Nat) {s : List Char}
    (hs : EndsNumber s) :
    EndsNumber (layout.gap depth ++ s) := by
  cases layout with
  | compact => exact hs
  | indented =>
    intro c hc
    cases hc
    rfl

private theorem endsNumber_writeItems (layout : JsonLayout) (depth : Nat) (items : List JsonValue)
    {s : List Char} (hs : EndsNumber s) : EndsNumber (writeItems layout depth items ++ s) := by
  cases items with
  | nil => exact hs
  | cons item items =>
    intro c hc
    cases hc
    rfl

private theorem endsNumber_writeMembers (layout : JsonLayout) (depth : Nat)
    (members : List (Option String × JsonValue)) {s : List Char} (hs : EndsNumber s) :
    EndsNumber (writeMembers layout depth members ++ s) := by
  cases members with
  | nil => exact hs
  | cons m members =>
    intro c hc
    cases hc
    rfl

private theorem scanFrom?_name {c : Char} {token : JsonToken} {word s : List Char}
    (h : word? (c :: word ++ s) = some (token, s)) (hc : isBlank c = false)
    (done : List JsonToken) : scanFrom? done (c :: word ++ s) = scanFrom? (token :: done) s := by
  apply scanFrom?_word done ?_ h
  intro d hd
  cases hd
  exact hc

private theorem scanFrom?_writeItems {items : List JsonValue} (hitems : ∀ item ∈ items, Scans item)
    (layout : JsonLayout) (depth : Nat) (done : List JsonToken) {s : List Char}
    (hs : EndsNumber s) :
    scanFrom? done (writeItems layout depth items ++ s) =
      scanFrom? ((itemWords items).reverse ++ done) s := by
  induction items generalizing done with
  | nil => rfl
  | cons item items ih =>
    obtain ⟨hitem, hrest⟩ := List.forall_mem_cons.mp hitems
    have hend := endsNumber_writeItems layout depth items hs
    simp only [writeItems, List.cons_append, List.append_assoc]
    rw [scanFrom?_punctuation rfl, scanFrom?_gap, hitem layout depth _ _ hend, ih hrest]
    simp [itemWords]

private theorem scanFrom?_writeMembers {members : List (Option String × JsonValue)}
    (hnames : ∀ m ∈ members, m.1.isSome) (hvalues : ∀ m ∈ members, Scans m.2)
    (layout : JsonLayout) (depth : Nat) (done : List JsonToken) {s : List Char}
    (hs : EndsNumber s) :
    scanFrom? done (writeMembers layout depth members ++ s) =
      scanFrom? ((memberWords members).reverse ++ done) s := by
  induction members generalizing done with
  | nil => rfl
  | cons m members ih =>
    obtain ⟨name, value⟩ := m
    obtain ⟨hname, hmore⟩ := List.forall_mem_cons.mp hnames
    obtain ⟨hvalue, hrest⟩ := List.forall_mem_cons.mp hvalues
    obtain ⟨t, rfl⟩ := Option.isSome_iff_exists.mp hname
    have hend := endsNumber_writeMembers layout depth members hs
    simp only [writeMembers, List.cons_append, List.append_assoc, Option.getD_some]
    rw [scanFrom?_punctuation rfl, scanFrom?_gap, scanFrom?_writeText, scanFrom?_colon,
      hvalue layout depth _ _ hend, ih hmore hrest]
    simp [memberWords]

private theorem scans_array {items : List JsonValue} (hitems : ∀ item ∈ items, Scans item) :
    Scans (.array items) := by
  intro layout depth done s hs
  cases items with
  | nil =>
    rw [write, List.cons_append, scanFrom?_punctuation rfl, List.cons_append,
      scanFrom?_punctuation rfl]
    rfl
  | cons item items =>
    obtain ⟨hitem, hrest⟩ := List.forall_mem_cons.mp hitems
    -- An item may be a number; behind it comes a comma, a line feed or the bracket.
    have hclose : EndsNumber (layout.gap depth ++ ']' :: s) :=
      endsNumber_gap layout depth (by intro c hc; cases hc; rfl)
    have hend := endsNumber_writeItems layout (depth + 1) items hclose
    simp only [write, List.cons_append, List.append_assoc, List.nil_append]
    rw [scanFrom?_punctuation rfl, scanFrom?_gap, hitem layout _ _ _ hend,
      scanFrom?_writeItems hrest layout _ _ hclose, scanFrom?_gap, scanFrom?_punctuation rfl]
    simp [words]

private theorem scans_object {members : List (Option String × JsonValue)}
    (hnames : ∀ m ∈ members, m.1.isSome) (hvalues : ∀ m ∈ members, Scans m.2) :
    Scans (.object members) := by
  intro layout depth done s hs
  cases members with
  | nil =>
    rw [write, List.cons_append, scanFrom?_punctuation rfl, List.cons_append,
      scanFrom?_punctuation rfl]
    rfl
  | cons m members =>
    obtain ⟨name, value⟩ := m
    obtain ⟨hname, hmore⟩ := List.forall_mem_cons.mp hnames
    obtain ⟨hvalue, hrest⟩ := List.forall_mem_cons.mp hvalues
    obtain ⟨t, rfl⟩ := Option.isSome_iff_exists.mp hname
    have hclose : EndsNumber (layout.gap depth ++ '\x7d' :: s) :=
      endsNumber_gap layout depth (by intro c hc; cases hc; rfl)
    have hend := endsNumber_writeMembers layout (depth + 1) members hclose
    simp only [write, List.cons_append, List.append_assoc, List.nil_append, Option.getD_some]
    rw [scanFrom?_punctuation rfl, scanFrom?_gap, scanFrom?_writeText, scanFrom?_colon,
      hvalue layout _ _ _ hend, scanFrom?_writeMembers hmore hrest layout _ _ hclose,
      scanFrom?_gap, scanFrom?_punctuation rfl]
    simp [words]

private theorem IsPlain.scans {value : JsonValue} (h : value.IsPlain) : value.Scans := by
  induction h with
  | null =>
    intro layout depth done s hs
    exact scanFrom?_name rfl rfl done
  | bool b =>
    intro layout depth done s hs
    cases b with
    | false => exact scanFrom?_name rfl rfl done
    | true => exact scanFrom?_name rfl rfl done
  | ofNat n =>
    intro layout depth done s hs
    exact scanFrom?_writeNumeral n done hs
  | ofString t =>
    intro layout depth done s hs
    exact scanFrom?_writeText t done s
  | array hitems ih => exact scans_array ih
  | object hnames hvalues ih => exact scans_object hnames ih

private theorem scan?_write {value : JsonValue} (h : value.IsPlain) (layout : JsonLayout) :
    scan? (value.write layout 0) = some value.words := by
  have hend : EndsNumber [] := by
    intro c hc
    cases hc
  have hscan := h.scans layout 0 [] [] hend
  rw [List.append_nil, List.append_nil] at hscan
  rw [scan?, hscan, scanFrom?_eq]
  exact congrArg some (List.reverse_reverse _)

private theorem foldlM_next_firstItem (value : JsonValue) (more : List JsonToken)
    (outer : JsonPlace) :
    (value.words ++ more).foldlM (JsonReading.next none) (.firstItem outer) =
      (value.words ++ more).foldlM (JsonReading.next none) (.value (.item [] outer)) := by
  -- Only the bracket that ends the array is taken in another way.
  have hhead : ∃ token tokens, value.words = token :: tokens ∧ token ≠ .closeArray := by
    cases value with
    | array items => cases items <;> exact ⟨_, _, rfl, by simp⟩
    | object members =>
      rcases members with - | ⟨⟨name, v⟩, members⟩ <;> exact ⟨_, _, rfl, by simp⟩
    | _ => exact ⟨_, _, rfl, by simp⟩
  obtain ⟨token, tokens, hwords, htoken⟩ := hhead
  have hnext : JsonReading.next none (.firstItem outer) token =
      JsonReading.next none (.value (.item [] outer)) token := by
    cases token <;> first | rfl | exact absurd rfl htoken
  rw [hwords, List.cons_append, List.foldlM_cons, List.foldlM_cons, hnext]

mutual

private theorem foldlM_words (value : JsonValue) (place : JsonPlace) :
    value.words.foldlM (JsonReading.next none) (.value place) = some (place.fill value) := by
  match value with
  | .null => rfl
  | .bool b => rfl
  | .number numeral => rfl
  | .text content => rfl
  | .array [] => rfl
  | .array (item :: items) =>
    rw [words, List.foldlM_cons]
    change (words item ++ itemWords items ++ [JsonToken.closeArray]).foldlM (JsonReading.next none)
      (.firstItem place) = _
    -- The first word after the bracket is that of a value and so does not end the array.
    rw [List.append_assoc, foldlM_next_firstItem, List.foldlM_append, foldlM_words item]
    change (itemWords items ++ [JsonToken.closeArray]).foldlM (JsonReading.next none)
      (.afterItem [item] place) = _
    rw [List.foldlM_append, foldlM_itemWords items]
    simp [JsonReading.next]
  | .object [] => rfl
  | .object ((name, v) :: members) =>
    rw [words]
    change (words v ++ memberWords members ++ [JsonToken.closeObject]).foldlM (JsonReading.next none)
      (.value (.member [] name place)) = _
    rw [List.append_assoc, List.foldlM_append, foldlM_words v]
    change (memberWords members ++ [JsonToken.closeObject]).foldlM (JsonReading.next none)
      (.afterMember [(name, v)] place) = _
    rw [List.foldlM_append, foldlM_memberWords members]
    simp [JsonReading.next]

private theorem foldlM_itemWords (items done : List JsonValue) (outer : JsonPlace) :
    (itemWords items).foldlM (JsonReading.next none) (.afterItem done outer) =
      some (.afterItem (items.reverse ++ done) outer) := by
  match items with
  | [] => rfl
  | item :: items =>
    rw [itemWords]
    change (words item ++ itemWords items).foldlM (JsonReading.next none)
      (.value (.item done outer)) = _
    rw [List.foldlM_append, foldlM_words item]
    change (itemWords items).foldlM (JsonReading.next none) (.afterItem (item :: done) outer) = _
    rw [foldlM_itemWords items]
    simp

private theorem foldlM_memberWords (members done : List (Option String × JsonValue))
    (outer : JsonPlace) :
    (memberWords members).foldlM (JsonReading.next none) (.afterMember done outer) =
      some (.afterMember (members.reverse ++ done) outer) := by
  match members with
  | [] => rfl
  | (name, v) :: members =>
    rw [memberWords]
    change (words v ++ memberWords members).foldlM (JsonReading.next none)
      (.value (.member done name outer)) = _
    rw [List.foldlM_append, foldlM_words v]
    change (memberWords members).foldlM (JsonReading.next none)
      (.afterMember ((name, v) :: done) outer) = _
    rw [foldlM_memberWords members]
    simp

end

private theorem ofTokens?_words (value : JsonValue) : ofTokens? none value.words = some value := by
  rw [ofTokens?, foldlM_words]
  rfl

/-- A written value is read back, on one line and over several. -/
theorem parse?_render {value : JsonValue} (h : value.IsPlain) (layout : JsonLayout) :
    parse? (value.render layout) = some value := by
  rw [parse?, render, String.toList_ofList, scan?_write h, Option.bind_some, ofTokens?_words]

end JsonValue

end RepoGraph
