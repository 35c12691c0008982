import ActorSurface.Proofs.Token.Segments

/-!
Lookahead is transparent. Whatever a cursor is asked, in any order and as often as one likes, what it delivers
is a front of what it delivers when it is only asked for the next token: everything that is taken, and the failures
that lookahead meets (`lookahead_transparent`). Nothing is delivered twice and nothing is lost. What lookahead
shows is the delivery that comes next, whatever is asked in between.
-/

namespace ActorSurface

namespace Token

/-- What can be asked of a cursor. A check asks whether the kind of the next token is one of those accepted. -/
inductive Query where
  | next
  | peek
  | check (accepted : Kind → Bool)
  | lineOf (offset : Nat)
  | failureAt (offset : Nat) (message : String)

/-- What a cursor delivers: a token, or the failure that stands in its place. -/
abbrev Delivery := Except Failure Token

/-- What a query is answered with. -/
inductive Reply where
  | taken (delivery : Delivery)
  | shown (delivery : Delivery)
  | checked (answer : Except Failure Bool)
  | line (number : Nat)
  | built (failure : Failure)

/-- What a reply delivers: what is taken, and a failure that lookahead meets. A token that is only shown is
    not delivered. -/
def Reply.delivery? : Reply → Option Delivery
  | .taken delivery => some delivery
  | .shown (.error failure) => some (.error failure)
  | .checked (.error failure) => some (.error failure)
  | _ => none

/-- Two kinds of the same variant are the same, up to the text of an identifier. -/
theorem Kind.alike_iff (kind other : Kind) :
    kind.alike other = true ↔ kind = other ∨ ∃ name more, kind = .identifier name ∧ other = .identifier more := by
  unfold Kind.alike
  split
  next name more => simp
  next notIdentifiers =>
    rw [beq_iff_eq]
    constructor
    · exact .inl
    · rintro (same | ⟨name, more, rfl, rfl⟩)
      · exact same
      · exact absurd rfl (notIdentifiers name more rfl)

namespace Cursor

/-- The reply to a query, and the cursor behind it. -/
def ask (cursor : Cursor) : Query → Reply × Cursor
  | .next => (.taken (cursor.next.1.mapError cursor.failure), cursor.next.2)
  | .peek => (.shown (cursor.peek.1.mapError cursor.failure), cursor.peek.2)
  | .check accepted => (.checked ((cursor.check accepted).1.mapError cursor.failure), (cursor.check accepted).2)
  | .lineOf offset => (.line (cursor.lineOf offset), cursor)
  | .failureAt offset message => (.built (cursor.failureAt offset message), cursor)

/-- The cursor behind some queries. -/
def behind (cursor : Cursor) : List Query → Cursor
  | [] => cursor
  | query :: queries => (cursor.ask query).2.behind queries

/-- What a cursor delivers while it is asked some queries, in order. -/
def delivered (cursor : Cursor) : List Query → List Delivery
  | [] => []
  | query :: queries => (cursor.ask query).1.delivery?.toList ++ (cursor.ask query).2.delivered queries

/-- What the call for the next token delivers behind `count` such calls. -/
def delivery (cursor : Cursor) (count : Nat) : Delivery :=
  (cursor.advance count).next.1.mapError cursor.failure

/-! ### One query -/

theorem lines_read (cursor : Cursor) : cursor.read.2.lines = cursor.lines := by
  unfold read
  split <;> rfl

theorem ahead_read (cursor : Cursor) : cursor.read.2.ahead = cursor.ahead := by
  unfold read
  split <;> rfl

theorem lines_next (cursor : Cursor) : cursor.next.2.lines = cursor.lines := by
  unfold next
  split
  · rfl
  · exact cursor.lines_read

/-- Nothing is kept behind a call for the next token. -/
theorem ahead_next (cursor : Cursor) : cursor.next.2.ahead = none := by
  unfold next
  split
  · rfl
  next empty => rw [ahead_read, empty]

/-- A peek that shows a token keeps it for the next call; one that meets a fault is that call. -/
theorem peek_cases (cursor : Cursor) :
    (∃ token, cursor.next.1 = .ok token ∧ cursor.peek.1 = .ok token ∧ cursor.peek.2.next = cursor.next ∧
        cursor.peek.2.lines = cursor.lines) ∨
      ∃ misread, cursor.next.1 = .error misread ∧ cursor.peek = cursor.next := by
  have lines := cursor.lines_next
  have ahead := cursor.ahead_next
  unfold peek
  split
  next token after next =>
    rw [next] at lines ahead ⊢
    refine .inl ⟨token, rfl, rfl, ?_, lines⟩
    -- The token that is kept is handed over first, and then nothing is kept, as behind the call itself.
    change (Except.ok token, { after with ahead := none }) = (Except.ok token, after)
    rw [← ahead]
  next misread after next => exact .inr ⟨misread, by rw [next], next.symm⟩

theorem failure_of_lines {one other : Cursor} (lines : one.lines = other.lines) : one.failure = other.failure := by
  funext misread
  simp only [failure, failureAt, lineOf, lines]

/-- Behind the next call the deliveries are one further on. -/
theorem delivery_next (cursor : Cursor) (count : Nat) :
    cursor.next.2.delivery count = cursor.delivery (count + 1) := by
  unfold delivery
  rw [failure_of_lines cursor.lines_next, advance]

/-- Cursors that go on alike deliver the same. -/
theorem delivery_of_next_eq {one other : Cursor} (next : one.next = other.next) (lines : one.lines = other.lines) :
    one.delivery = other.delivery := by
  funext count
  unfold delivery
  rw [failure_of_lines lines]
  cases count with
  | zero => rw [advance, advance, next]
  | succ count => rw [advance, advance, next]

/-- A reply that delivers is the next delivery and moves the cursor on by one, and any other leaves all deliveries
    to come. -/
structure Answered (cursor : Cursor) (reply : Reply) (after : Cursor) : Prop where
  delivers : ∀ delivery, reply.delivery? = some delivery →
    delivery = cursor.delivery 0 ∧ ∀ count, after.delivery count = cursor.delivery (count + 1)
  keeps : reply.delivery? = none → after.delivery = cursor.delivery

/-- A query about the text delivers nothing and leaves the cursor as it is. -/
theorem answered_of_same {cursor after : Cursor} {reply : Reply} (nothing : reply.delivery? = none)
    (same : after = cursor) : Answered cursor reply after := by
  constructor
  · intro delivery delivered
    rw [nothing] at delivered
    cases delivered
  · intro _
    rw [same]

theorem answered_next (cursor : Cursor) : Answered cursor (cursor.ask .next).1 (cursor.ask .next).2 := by
  constructor
  · intro delivery delivered
    obtain rfl := Option.some.inj delivered
    exact ⟨rfl, cursor.delivery_next⟩
  · intro nothing
    cases nothing

theorem answered_peek (cursor : Cursor) : Answered cursor (cursor.ask .peek).1 (cursor.ask .peek).2 := by
  rcases cursor.peek_cases with ⟨token, -, shown, next, lines⟩ | ⟨misread, fails, same⟩
  · constructor
    · intro delivery delivered
      simp only [ask, shown] at delivered
      cases delivered
    · intro _
      exact delivery_of_next_eq next lines
  · constructor
    · intro delivery delivered
      simp only [ask, same, fails] at delivered ⊢
      obtain rfl := Option.some.inj delivered
      refine ⟨?_, cursor.delivery_next⟩
      simp only [Cursor.delivery, advance, fails]
      rfl
    · intro nothing
      simp only [ask, same, fails] at nothing
      cases nothing

/-- A check looks ahead as a peek does and fails where it fails. -/
theorem answered_check (cursor : Cursor) (accepted : Kind → Bool) :
    Answered cursor (cursor.ask (.check accepted)).1 (cursor.ask (.check accepted)).2 := by
  have peeked := cursor.answered_peek
  have same : (cursor.ask (.check accepted)).1.delivery? = (cursor.ask .peek).1.delivery? := by
    simp only [ask, check]
    cases cursor.peek.1 <;> rfl
  constructor
  · intro delivery delivered
    exact peeked.delivers delivery (same ▸ delivered)
  · intro nothing
    exact peeked.keeps (same ▸ nothing)

theorem answered (cursor : Cursor) (query : Query) : Answered cursor (cursor.ask query).1 (cursor.ask query).2 := by
  cases query with
  | next => exact cursor.answered_next
  | peek => exact cursor.answered_peek
  | check accepted => exact cursor.answered_check accepted
  | lineOf offset => exact answered_of_same rfl rfl
  | failureAt offset message => exact answered_of_same rfl rfl

/-! ### A run of queries -/

/-- A run of queries delivers what comes first, without a gap, and leaves the rest to come. -/
theorem delivered_eq (cursor : Cursor) (queries : List Query) :
    cursor.delivered queries = (List.range (cursor.delivered queries).length).map cursor.delivery ∧
      ∀ count, (cursor.behind queries).delivery count =
        cursor.delivery ((cursor.delivered queries).length + count) := by
  induction queries generalizing cursor with
  | nil => simp [delivered, behind]
  | cons query queries ih =>
    obtain ⟨first, rest⟩ := ih (cursor.ask query).2
    obtain ⟨delivers, keeps⟩ := cursor.answered query
    simp only [delivered, behind]
    cases reply : (cursor.ask query).1.delivery? with
    | none =>
      rw [keeps reply] at first rest
      exact ⟨first, rest⟩
    | some delivery =>
      obtain ⟨rfl, onward⟩ := delivers delivery reply
      simp only [Option.toList_some, List.singleton_append, List.length_cons, List.range_succ_eq_map, List.map_cons,
        List.map_map]
      constructor
      · have shifted : cursor.delivery ∘ Nat.succ = (cursor.ask query).2.delivery := (funext onward).symm
        rw [shifted, ← first]
      · intro count
        rw [rest, onward]
        congr 1
        omega

/-- Asked for the next token only, a cursor delivers something each time. -/
theorem length_delivered_next (cursor : Cursor) (count : Nat) :
    (cursor.delivered (List.replicate count .next)).length = count := by
  induction count generalizing cursor with
  | zero => rfl
  | succ count ih =>
    rw [List.replicate_succ, delivered, List.length_append, ih]
    change 1 + count = count + 1
    omega

/-- The first delivery of any queries is the one that comes next. -/
theorem head?_delivered {cursor : Cursor} {queries : List Query} {first : Delivery}
    (here : (cursor.delivered queries).head? = some first) : first = cursor.delivery 0 := by
  obtain ⟨front, -⟩ := cursor.delivered_eq queries
  rw [front, List.head?_map] at here
  cases length : (cursor.delivered queries).length with
  | zero => simp [length] at here
  | succ count =>
    rw [length, List.range_succ_eq_map] at here
    exact (Option.some.inj here).symm

/-! ### What lookahead shows -/

/-- What any queries deliver is a front of what as many calls for the next token deliver, or more. -/
theorem delivered_prefix (cursor : Cursor) (queries : List Query) {count : Nat}
    (enough : (cursor.delivered queries).length ≤ count) :
    cursor.delivered queries <+: cursor.delivered (List.replicate count .next) := by
  obtain ⟨front, -⟩ := cursor.delivered_eq queries
  obtain ⟨all, -⟩ := cursor.delivered_eq (List.replicate count .next)
  obtain ⟨more, rfl⟩ := Nat.exists_eq_add_of_le enough
  rw [all, length_delivered_next, List.range_add, List.map_append, ← front]
  exact List.prefix_append ..

/-- A peek that shows a token, and the delivery behind it. -/
theorem delivery_of_shown {cursor : Cursor} {token : Token} (shows : (cursor.ask .peek).1 = .shown (.ok token)) :
    cursor.next.1 = .ok token ∧ (cursor.ask .peek).2.next = cursor.next ∧
      (cursor.ask .peek).2.delivery 0 = .ok token := by
  rcases cursor.peek_cases with ⟨kept, first, shown, next, lines⟩ | ⟨misread, fails, same⟩
  · simp only [ask, shown] at shows
    obtain rfl : kept = token := Except.ok.inj (Reply.shown.inj shows)
    refine ⟨first, next, ?_⟩
    have same : (cursor.ask .peek).2.delivery 0 = cursor.delivery 0 := congrFun (delivery_of_next_eq next lines) 0
    rw [same, delivery, advance, first]
    rfl
  · simp only [ask, same, fails] at shows
    cases Reply.shown.inj shows

/-- A check that is answered has looked at a token, as a peek shows it. -/
theorem shown_of_checked {cursor : Cursor} {accepted : Kind → Bool} {answer : Bool}
    (answers : (cursor.ask (.check accepted)).1 = .checked (.ok answer)) :
    ∃ token, (cursor.ask .peek).1 = .shown (.ok token) ∧ answer = accepted token.kind := by
  simp only [ask, check] at answers ⊢
  cases shown : cursor.peek.1 with
  | error misread =>
    rw [shown] at answers
    cases Reply.checked.inj answers
  | ok token =>
    rw [shown] at answers
    exact ⟨token, rfl, (Except.ok.inj (Reply.checked.inj answers)).symm⟩

/-- A further peek shows the same token and leaves the cursor as it is. -/
theorem peek_again {cursor : Cursor} {token : Token} (shows : (cursor.ask .peek).1 = .shown (.ok token)) :
    (cursor.ask .peek).2.ask .peek = cursor.ask .peek := by
  obtain ⟨first, next, -⟩ := delivery_of_shown shows
  have again : cursor.peek.2.peek = cursor.peek := by
    change cursor.peek.2.next = cursor.next at next
    rw [peek, next, ← peek]
  have lines : cursor.peek.2.lines = cursor.lines := by
    rcases cursor.peek_cases with ⟨-, -, -, -, lines⟩ | ⟨misread, fails, -⟩
    · exact lines
    · rw [first] at fails
      cases fails
  change (Reply.shown (cursor.peek.2.peek.1.mapError cursor.peek.2.failure), cursor.peek.2.peek.2) = _
  rw [again, failure_of_lines lines]
  rfl

/-- What a cursor delivers does not depend on how it is made to look ahead. -/
structure Transparent (cursor : Cursor) : Prop where
  /-- What any queries deliver is a front of what calls for the next token deliver. -/
  front : ∀ queries count, (cursor.delivered queries).length ≤ count →
    cursor.delivered queries <+: cursor.delivered (List.replicate count .next)
  /-- A token that is shown is the next delivery, whatever is asked in between. -/
  peeks : ∀ before after token first, ((cursor.behind before).ask .peek).1 = .shown (.ok token) →
    (((cursor.behind before).ask .peek).2.delivered after).head? = some first → first = .ok token
  /-- A check that is answered tells of the next delivery, a token, whether its kind is accepted. -/
  checks : ∀ before after accepted answer first,
    ((cursor.behind before).ask (.check accepted)).1 = .checked (.ok answer) →
    (((cursor.behind before).ask (.check accepted)).2.delivered after).head? = some first →
      ∃ token, first = .ok token ∧ answer = accepted token.kind
  /-- So a check for one kind tells whether the next token is of its variant. -/
  variants : ∀ before after expected answer first,
    ((cursor.behind before).ask (.check (Kind.alike expected))).1 = .checked (.ok answer) →
    (((cursor.behind before).ask (.check (Kind.alike expected))).2.delivered after).head? = some first →
      ∃ token, first = .ok token ∧ (answer = true ↔ expected = token.kind ∨
        ∃ name more, expected = .identifier name ∧ token.kind = .identifier more)
  /-- A further peek changes nothing. -/
  repeats : ∀ before token, ((cursor.behind before).ask .peek).1 = .shown (.ok token) →
    ((cursor.behind before).ask .peek).2.ask .peek = (cursor.behind before).ask .peek

/-- Lookahead on the tokens of a source is transparent. -/
theorem lookahead_transparent (source : String) : Transparent (ofText source.toList) := by
  have peeks : ∀ (cursor : Cursor) after token first, (cursor.ask .peek).1 = .shown (.ok token) →
      ((cursor.ask .peek).2.delivered after).head? = some first → first = .ok token := by
    intro cursor after token first shows here
    rw [head?_delivered here]
    exact (delivery_of_shown shows).2.2
  have checks : ∀ (cursor : Cursor) after accepted answer first,
      (cursor.ask (.check accepted)).1 = .checked (.ok answer) →
      ((cursor.ask (.check accepted)).2.delivered after).head? = some first →
        ∃ token, first = .ok token ∧ answer = accepted token.kind := by
    intro cursor after accepted answer first answers here
    obtain ⟨token, shows, rfl⟩ := shown_of_checked answers
    exact ⟨token, peeks cursor after token first shows here, rfl⟩
  refine ⟨fun queries count => delivered_prefix _ queries, fun before => peeks _, fun before => checks _, ?_, ?_⟩
  · intro before after expected answer first answers here
    obtain ⟨token, taken, rfl⟩ := checks _ after _ answer first answers here
    exact ⟨token, taken, expected.alike_iff token.kind⟩
  · intro before token shows
    exact peek_again shows

end Cursor

end Token

end ActorSurface
