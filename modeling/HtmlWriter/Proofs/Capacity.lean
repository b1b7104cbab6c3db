import HtmlWriter.Proofs.Streaming
import HtmlWriter.Proofs.Unlimited

/-! Writing to sinks that have room for only so many bytes. Such a sink takes what one with room
for everything takes, until it is full, and from then on nothing. So the same action on two
documents that differ in their sinks alone goes the same way on both, up to the failure. -/

namespace HtmlWriter
open Writing
variable {α : Type}

namespace Sink
variable {sink : Sink} {bytes : List UInt8}

def filled (sink : Sink) (bytes : List UInt8) : Sink :=
  { sink with
    held := sink.held ++ bytes.toArray
    room := sink.room.map (· - bytes.length) }

/-- So many bytes more are taken, in however many parts. -/
def Holds (sink : Sink) (count : Nat) : Prop :=
  0 < count → sink.chunk ≠ some 0 ∧ ∀ room, sink.room = some room → count ≤ room

/-- No more bytes are taken, since there is no room or since writes take nothing. -/
def Spent (sink : Sink) : Prop := sink.room = some 0 ∨ sink.chunk = some 0

/-- Every write is taken, in however many parts. -/
structure Accepts (sink : Sink) : Prop where
  room : sink.room = none
  chunk : sink.chunk ≠ some 0

theorem Unlimited.accepts (unlimited : sink.Unlimited) : sink.Accepts :=
  ⟨unlimited.room, unlimited.chunk⟩

@[simp] theorem contents_filled (sink : Sink) (bytes : List UInt8) :
    (sink.filled bytes).contents = sink.contents ++ bytes := by
  simp [contents, filled]

theorem filled_nil (sink : Sink) : sink.filled [] = sink := by
  simp [filled]

theorem filled_filled (sink : Sink) (first second : List UInt8) :
    (sink.filled first).filled second = sink.filled (first ++ second) := by
  simp [filled, Function.comp_def, Nat.sub_sub]

private theorem accept_eq_filled (sink : Sink) (byte : UInt8) :
    sink.accept byte = sink.filled [byte] := by
  simp [accept, filled]

theorem Holds.zero (sink : Sink) : sink.Holds 0 := fun some => absurd some (Nat.lt_irrefl 0)

theorem Holds.mono {first second : Nat} (holds : sink.Holds second) (fewer : first ≤ second) :
    sink.Holds first := by
  intro some
  obtain ⟨chunk, room⟩ := holds (by omega)
  exact ⟨chunk, fun left same => Nat.le_trans fewer (room left same)⟩

theorem Holds.le {count capacity : Nat} (holds : sink.Holds count)
    (room : sink.room = some capacity) : count ≤ capacity := by
  cases count with
  | zero => exact Nat.zero_le _
  | succ count => exact (holds (Nat.succ_pos _)).2 capacity room

theorem Holds.filled {count : Nat} (holds : sink.Holds (bytes.length + count)) :
    (sink.filled bytes).Holds count := by
  intro some
  obtain ⟨chunk, enough⟩ := holds (by omega)
  refine ⟨chunk, fun left same => ?_⟩
  obtain ⟨room, before, rfl⟩ := Option.map_eq_some_iff.mp same
  have := enough room before
  omega

theorem Holds.of_filled {count : Nat} (holds : sink.Holds bytes.length)
    (more : (sink.filled bytes).Holds count) : sink.Holds (bytes.length + count) := by
  cases count with
  | zero => exact holds
  | succ count =>
    intro some
    obtain ⟨chunk, enough⟩ := more (Nat.succ_pos _)
    refine ⟨chunk, fun room before => ?_⟩
    have first := holds.le before
    have second := enough (room - bytes.length) (by rw [Sink.filled, before]; rfl)
    omega

theorem Accepts.holds (accepts : sink.Accepts) (count : Nat) : sink.Holds count := by
  intro some
  refine ⟨accepts.chunk, fun room enough => ?_⟩
  rw [accepts.room] at enough
  cases enough

theorem Spent.not_holds {rest : List UInt8} (spent : (sink.filled bytes).Spent) (more : rest ≠ []) :
    ¬sink.Holds (bytes ++ rest).length := by
  intro holds
  rw [List.length_append] at holds
  obtain ⟨chunk, enough⟩ := holds.filled (List.length_pos_iff.mpr more)
  rcases spent with full | stuck
  · exact more (List.length_eq_zero_iff.mp (Nat.le_zero.mp (enough 0 full)))
  · exact chunk stuck

theorem Accepts.filled (accepts : sink.Accepts) (bytes : List UInt8) :
    (sink.filled bytes).Accepts :=
  ⟨by rw [Sink.filled, accepts.room]; rfl, accepts.chunk⟩

theorem Accepts.not_spent (accepts : sink.Accepts) : ¬sink.Spent := by
  rintro (full | stuck)
  · rw [accepts.room] at full
    cases full
  · exact accepts.chunk stuck

theorem positive {bound : Option Nat} {offered : Nat} (some : bound ≠ some 0) :
    0 < bound.getD (offered + 1) := by
  cases bound with
  | none => exact Nat.succ_pos offered
  | some bound => exact Nat.pos_of_ne_zero fun none => some (congrArg _ none)

private theorem portion_cases (sink : Sink) (count : Nat) :
    (∃ share, sink.portion (count + 1) = .ok (share + 1) ∧ sink.Holds (share + 1)) ∨
      sink.Spent ∧ ((∃ fault, sink.portion (count + 1) = .error fault) ∨
        sink.portion (count + 1) = .ok 0) := by
  by_cases full : sink.room = some 0
  · refine .inr ⟨.inl full, ?_⟩
    simp only [portion, full]
    cases sink.stalls with
    | true => exact .inr rfl
    | false => exact .inl ⟨.full, rfl⟩
  · have same : sink.portion (count + 1) = .ok (min (min (count + 1)
        (sink.room.getD (count + 1))) (sink.chunk.getD (count + 1))) := by
      unfold portion
      split
      · exact (full ‹_›).elim
      · rfl
    by_cases stuck : sink.chunk = some 0
    · refine .inr ⟨.inr stuck, .inr ?_⟩
      rw [same, stuck, Option.getD_some, Nat.min_zero]
    · have room : 0 < sink.room.getD (count + 1) := positive full
      have chunk : 0 < sink.chunk.getD (count + 1) := positive stuck
      obtain ⟨share, taken⟩ : ∃ share, min (min (count + 1) (sink.room.getD (count + 1)))
          (sink.chunk.getD (count + 1)) = share + 1 := Nat.exists_eq_succ_of_ne_zero (by omega)
      refine .inl ⟨share, by rw [same, taken], fun _ => ⟨stuck, fun room enough => ?_⟩⟩
      rw [enough, Option.getD_some] at taken
      omega

/-- What can come of offering bytes to a sink. -/
inductive Offered (sink : Sink) (bytes : List UInt8) : Sink × Option SinkFault → Prop
  | all (room : sink.Holds bytes.length) : Offered sink bytes (sink.filled bytes, none)
  | part {taken rest : List UInt8} (fault : SinkFault) (split : bytes = taken ++ rest)
      (more : rest ≠ []) (room : sink.Holds taken.length) (spent : (sink.filled taken).Spent) :
      Offered sink bytes (sink.filled taken, some fault)

theorem Offered.append {first : List UInt8} {result : Sink × Option SinkFault}
    (room : sink.Holds first.length) (offered : Offered (sink.filled first) bytes result) :
    Offered sink (first ++ bytes) result := by
  have also {taken : List UInt8} (rest : (sink.filled first).Holds taken.length) :
      sink.Holds (first ++ taken).length := by
    rw [List.length_append]
    exact room.of_filled rest
  cases offered with
  | all rest =>
    rw [filled_filled]
    exact .all (also rest)
  | @part taken later fault split more rest spent =>
    rw [filled_filled] at spent ⊢
    exact .part fault (by rw [split, List.append_assoc]) more (also rest) spent

/-- How much is taken of what is offered depends on the room alone. -/
theorem Offered.unique {result other : Sink × Option SinkFault}
    (offered : Offered sink bytes result)
    (again : Offered sink bytes other) :
    result.1 = other.1 ∧ (result.2 = none ↔ other.2 = none) := by
  cases offered with
  | all room =>
    cases again with
    | all _ => exact ⟨rfl, Iff.rfl⟩
    | part fault split more _ spent =>
      subst split
      exact (spent.not_holds more room).elim
  | @part taken rest fault split more room spent =>
    subst split
    cases again with
    | all enough => exact (spent.not_holds more enough).elim
    | @part first later other split missing enough full =>
      refine ⟨?_, iff_of_false (Option.some_ne_none _) (Option.some_ne_none _)⟩
      -- Neither has taken more than the other, since both are spent.
      rcases List.append_eq_append_iff.mp split with ⟨between, rfl, -⟩ | ⟨between, rfl, -⟩
      · by_cases same : between = []
        · rw [same, List.append_nil]
        · exact (spent.not_holds same enough).elim
      · by_cases same : between = []
        · rw [same, List.append_nil]
        · exact (full.not_holds same room).elim

private theorem writeSharing_offered (sink : Sink) {share : Nat} (enough : sink.Holds share)
    (bytes : List UInt8) : Offered sink bytes (sink.writeSharing share bytes) := by
  induction bytes generalizing sink share with
  | nil =>
    have none : Offered sink [] (sink.filled [], none) := .all (.zero sink)
    rwa [filled_nil] at none
  | cons byte rest ih =>
    have next {share : Nat} (enough : sink.Holds (share + 1)) :
        Offered sink (byte :: rest) ((sink.accept byte).writeSharing share rest) := by
      have one : sink.Holds [byte].length := enough.mono (Nat.le_add_left 1 share)
      rw [accept_eq_filled]
      refine .append one (ih _ ?_)
      exact Holds.filled (by rwa [Nat.add_comm] at enough)
    have last (fault : SinkFault) (spent : sink.Spent) :
        Offered sink (byte :: rest) (sink, some fault) := by
      have none : Offered sink (byte :: rest) (sink.filled [], some fault) :=
        .part fault rfl (List.cons_ne_nil _ _) (.zero sink) (by rwa [filled_nil])
      rwa [filled_nil] at none
    -- A write is made only when the share of the one before is used up.
    cases share with
    | succ share => exact next enough
    | zero =>
      rw [writeSharing]
      obtain ⟨share, takes, enough⟩ | ⟨spent, ⟨fault, fails⟩ | stalls⟩ :=
        sink.portion_cases rest.length
      · rw [takes]
        exact next enough
      · rw [fails]
        exact last fault spent
      · rw [stalls]
        exact last .wroteNothing spent

theorem writeAll_offered (sink : Sink) (bytes : List UInt8) :
    Offered sink bytes (sink.writeAll bytes) :=
  sink.writeSharing_offered (.zero sink) bytes

/-- Bytes are offered again and again. Of what is offered some are taken each time, however many,
until all are taken, or else until the sink is spent. -/
inductive TakesInParts : Sink → List UInt8 → Sink → Bool → Prop
  | all (sink : Sink) : TakesInParts sink [] sink true
  | part {sink last : Sink} {first rest : List UInt8} {whole : Bool} (some : first ≠ [])
      (room : sink.Holds first.length) (later : TakesInParts (sink.filled first) rest last whole) :
      TakesInParts sink (first ++ rest) last whole
  | spent {sink : Sink} {bytes : List UInt8} (more : bytes ≠ []) (spent : sink.Spent) :
      TakesInParts sink bytes sink false

theorem TakesInParts.offered {last : Sink} {whole : Bool}
    (parts : TakesInParts sink bytes last whole) (fault : SinkFault) :
    Offered sink bytes (last, if whole then none else some fault) := by
  induction parts with
  | all sink =>
    have nothing : Offered sink [] (sink.filled [], none) := .all (.zero sink)
    rwa [filled_nil] at nothing
  | part some room later ih => exact .append room ih
  | @spent sink bytes more spent =>
    have nothing : Offered sink bytes (sink.filled [], some fault) :=
      .part fault rfl more (.zero sink) (by rwa [filled_nil])
    rwa [filled_nil] at nothing

theorem TakesInParts.writeAll_eq {last : Sink} {whole : Bool}
    (parts : TakesInParts sink bytes last whole) :
    (sink.writeAll bytes).1 = last ∧ ((sink.writeAll bytes).2 = none ↔ whole = true) := by
  obtain ⟨same, ends⟩ := (sink.writeAll_offered bytes).unique (parts.offered .full)
  refine ⟨same, ends.trans ?_⟩
  cases whole with
  | true => exact iff_of_true rfl rfl
  | false => exact iff_of_false (Option.some_ne_none _) Bool.false_ne_true

theorem Accepts.writeAll_eq (accepts : sink.Accepts) (bytes : List UInt8) :
    sink.writeAll bytes = (sink.filled bytes, none) := by
  have offered := sink.writeAll_offered bytes
  generalize sink.writeAll bytes = result at offered
  cases offered with
  | all room => rfl
  | part fault split more room spent => exact ((accepts.filled _).not_spent spent).elim

theorem Spent.writeAll_eq (spent : sink.Spent) (bytes : List UInt8) :
    (sink.writeAll bytes).1 = sink := by
  have takesNone (count : Nat) :
      (∃ fault, sink.portion count = .error fault) ∨ sink.portion count = .ok 0 := by
    unfold portion
    split
    · split
      · exact .inr rfl
      · exact .inl ⟨_, rfl⟩
    · rcases spent with full | stuck
      · exact (‹sink.room = some 0 → False› full).elim
      · exact .inr (by rw [stuck, Option.getD_some, Nat.min_zero])
  cases bytes with
  | nil => rfl
  | cons byte rest =>
    rw [writeAll, writeSharing]
    obtain ⟨fault, fails⟩ | stalls := takesNone (rest.length + 1)
    · rw [fails]
    · rw [stalls]

end Sink

/-- Documents that differ in their sinks alone, and the sinks in what they held at first and in
what they take. -/
def Document.Twins (origin other : Sink) (limited wide : Document) : Prop :=
  ∃ taken, origin.Holds taken.length ∧ limited = { wide with sink := some (origin.filled taken) } ∧
    wide.sink = some (other.filled taken)

theorem Document.Twins.start (origin other : Sink) (parameters : Parameters) (encoder : Encoder) :
    Twins origin other (.start origin parameters encoder) (.start other parameters encoder) :=
  ⟨[], .zero origin, by rw [Sink.filled_nil]; rfl, by rw [Sink.filled_nil]; rfl⟩

/-- Documents of which the first cannot take all that the second has taken. -/
def Document.Parted (origin other : Sink) (limited wide : Document) : Prop :=
  ∃ taken more, more ≠ [] ∧ origin.Holds taken.length ∧ (origin.filled taken).Spent ∧
    limited.sink = some (origin.filled taken) ∧ wide.sink = some (other.filled (taken ++ more))

/-- Runs of the same action on twins: they end alike, or else the first fails since its sink
does. -/
inductive Alongside (origin other : Sink) :
    EStateM.Result Error Document α → EStateM.Result Error Document α → Prop
  | ok {value : α} {limited wide : Document} (twins : Document.Twins origin other limited wide) :
      Alongside origin other (.ok value limited) (.ok value wide)
  | error {error : Error} {limited wide : Document}
      (twins : Document.Twins origin other limited wide) :
      Alongside origin other (.error error limited) (.error error wide)
  | partedOk {fault : SinkFault} {value : α} {limited wide : Document}
      (parted : Document.Parted origin other limited wide) :
      Alongside origin other (.error (.sink fault) limited) (.ok value wide)
  | partedError {fault : SinkFault} {error : Error} {limited wide : Document}
      (parted : Document.Parted origin other limited wide) :
      Alongside origin other (.error (.sink fault) limited) (.error error wide)

theorem Writing.run_write_of_sink {document : Document} {sink : Sink}
    (present : document.sink = some sink) (text : String) : (write text).run document =
      match sink.writeAll (utf8 text) with
      | (sink, none) =>
          .ok () { document with sink := some sink, format := document.format.after text }
      | (sink, some fault) => .error (.sink fault) { document with sink := some sink } := by
  simp only [write, Action.always, present]
  rfl

theorem Writing.run_write_detached {document : Document} (gone : document.sink = none)
    (text : String) : (write text).run document = .error .sinkDetached document := by
  simp only [write, Action.always, gone]

theorem Apart.sink_same {change : Document → α × Document} (apart : Apart change)
    (document : Document) : (change document).2.sink = document.sink := by
  have same := apart.blind document document.sink
  exact congrArg (fun result => result.2.sink) same

namespace Streams
variable {β : Type} {origin other : Sink} {document limited wide : Document}

theorem grows {action : Writing α} (streams : Streams action) (accepts : other.Accepts)
    {taken : List UInt8} (holds : document.sink = some (other.filled taken)) :
    ∃ more, (finalState action document).sink = some (other.filled (taken ++ more)) := by
  refine streams.keeps (fun before after => ∀ taken, before.sink = some (other.filled taken) →
      ∃ more, after.sink = some (other.filled (taken ++ more))) ?_ ?_ ?_ ?_ document taken holds
  · exact fun document taken holds => ⟨[], by rw [holds, List.append_nil]⟩
  · intro before middle after first rest taken holds
    obtain ⟨more, grown⟩ := first taken holds
    obtain ⟨last, done⟩ := rest _ grown
    exact ⟨more ++ last, by rw [done, List.append_assoc]⟩
  · intro text document taken holds
    refine ⟨utf8 text, ?_⟩
    rw [finalState, run_write_of_sink holds, (accepts.filled taken).writeAll_eq,
      Sink.filled_filled]
  · intro _ change apart document taken holds
    exact ⟨[], by rw [apart.sink_same, holds, List.append_nil]⟩

theorem stays {action : Writing α} (streams : Streams action) {sink : Sink} (spent : sink.Spent)
    (holds : document.sink = some sink) : (finalState action document).sink = some sink := by
  refine streams.keeps (fun before after => before.sink = some sink → after.sink = some sink)
    (fun _ holds => holds) (fun first rest holds => rest (first holds)) ?_
    (fun apart document holds => (apart.sink_same document).trans holds) document holds
  intro text document holds
  have same := spent.writeAll_eq (utf8 text)
  rw [finalState, run_write_of_sink holds]
  generalize sink.writeAll (utf8 text) = result at same
  obtain ⟨left, _ | fault⟩ := result
  · exact congrArg some same
  · exact congrArg some same

end Streams

theorem Document.Parted.later {origin other : Sink} {limited wide after next : Document}
    (parted : Parted origin other limited wide) (stays : after.sink = limited.sink)
    (grows : ∀ taken, wide.sink = some (other.filled taken) →
      ∃ more, next.sink = some (other.filled (taken ++ more))) :
    Parted origin other after next := by
  obtain ⟨taken, more, missing, room, spent, short, long⟩ := parted
  obtain ⟨last, grown⟩ := grows _ long
  rw [List.append_assoc] at grown
  exact ⟨taken, more ++ last, List.append_ne_nil_of_left_ne_nil missing last, room, spent,
    stays.trans short, grown⟩

namespace Alongside
variable {β : Type} {origin other : Sink} {limited wide : Document}

theorem write (accepts : other.Accepts) (twins : Document.Twins origin other limited wide)
    (text : String) : Alongside origin other ((Writing.write text).run limited)
      ((Writing.write text).run wide) := by
  obtain ⟨taken, room, rfl, present⟩ := twins
  have offered := (origin.filled taken).writeAll_offered (utf8 text)
  rw [run_write_of_sink rfl, run_write_of_sink present, (accepts.filled taken).writeAll_eq]
  generalize (origin.filled taken).writeAll (utf8 text) = result at offered
  cases offered with
  | all enough =>
    have enough := room.of_filled enough
    rw [← List.length_append] at enough
    rw [Sink.filled_filled, Sink.filled_filled]
    exact .ok ⟨_, enough, rfl, rfl⟩
  | @part first rest fault split more enough spent =>
    have enough := room.of_filled enough
    rw [← List.length_append] at enough
    rw [Sink.filled_filled] at spent
    rw [Sink.filled_filled, Sink.filled_filled, split, ← List.append_assoc]
    exact .partedOk ⟨_, rest, more, enough, spent, rfl, rfl⟩

theorem bind (accepts : other.Accepts) {first : Writing α} {next : α → Writing β}
    (started : Alongside origin other (first.run limited) (first.run wide))
    (streams : ∀ value, Streams (next value))
    (rest : ∀ value {limited wide}, Document.Twins origin other limited wide →
      Alongside origin other ((next value).run limited) ((next value).run wide)) :
    Alongside origin other ((first >>= next).run limited) ((first >>= next).run wide) := by
  rw [Action.run_bind, Action.run_bind]
  generalize first.run limited = short at started
  generalize first.run wide = long at started
  cases started with
  | ok twins => exact rest _ twins
  | error twins => exact .error twins
  | partedError parted => exact .partedError parted
  | @partedOk fault value limited wide parted =>
    -- The first has failed already, so what comes next is written only by the second.
    have later := parted.later rfl fun taken holds => (streams value).grows accepts holds
    rw [finalState] at later
    dsimp only
    generalize (next value).run wide = result at later
    cases result with
    | ok value final => exact .partedOk later
    | error error final => exact .partedError later

theorem tidied {action : Writing α} {tidy : Document → Unit × Document} (apart : Apart tidy)
    (tried : Alongside origin other (action.run limited) (action.run wide)) :
    Alongside origin other
      ((tryCatch action fun error => do modifyGet tidy; throw error).run limited)
      ((tryCatch action fun error => do modifyGet tidy; throw error).run wide) := by
  rw [Action.run_tryCatch, Action.run_tryCatch]
  generalize action.run limited = short at tried
  generalize action.run wide = long at tried
  have grows (document : Document) (taken : List UInt8)
      (holds : document.sink = some (other.filled taken)) :
      ∃ more, (tidy document).2.sink = some (other.filled (taken ++ more)) :=
    ⟨[], by rw [apart.sink_same, holds, List.append_nil]⟩
  cases tried with
  | ok twins => exact .ok twins
  | @error error limited wide twins =>
    obtain ⟨taken, room, rfl, present⟩ := twins
    have same := congrArg Prod.snd (apart.blind wide (some (origin.filled taken)))
    exact .error ⟨taken, room, same, (apart.sink_same wide).trans present⟩
  | @partedOk fault value limited wide parted =>
    exact .partedOk (parted.later (apart.sink_same limited) fun taken holds =>
      ⟨[], by rw [holds, List.append_nil]⟩)
  | @partedError fault error limited wide parted =>
    exact .partedError (parted.later (apart.sink_same limited) (grows wide))

end Alongside

theorem Streams.alongside {action : Writing α} (streams : Streams action) {origin other : Sink}
    (accepts : other.Accepts) {limited wide : Document}
    (twins : Document.Twins origin other limited wide) :
    Alongside origin other (action.run limited) (action.run wide) := by
  induction streams generalizing limited wide with
  | write text => exact .write accepts twins text
  | throw error => exact .error twins
  | demand fits => exact .ok twins
  | @update _ change apart =>
    obtain ⟨taken, room, rfl, present⟩ := twins
    have same := apart.blind wide (some (origin.filled taken))
    have ran : (modifyGet change : Writing _).run
        { wide with sink := some (origin.filled taken) } = .ok (change wide).1
          { (change wide).2 with sink := some (origin.filled taken) } := by
      rw [Action.run_modifyGet, same]
    rw [ran, Action.run_modifyGet]
    exact .ok ⟨taken, room, rfl, (apart.sink_same wide).trans present⟩
  | @read _ next blind rest ih =>
    have same : next limited = next wide := by
      obtain ⟨taken, -, rfl, -⟩ := twins
      exact blind wide _
    change Alongside origin other ((next limited).run limited) ((next wide).run wide)
    rw [same]
    exact ih wide twins
  | bind started rest ihStarted ihRest =>
    exact .bind accepts (ihStarted twins) rest fun value _ _ twins => ihRest value twins
  | tidied tried apart ih => exact .tidied apart (ih twins)

end HtmlWriter
