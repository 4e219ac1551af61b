import ExprWasm.Proofs.Source.Delivered

/-! Reads that come to nothing.

A read that brings no data, that the stream refuses, or whose bytes cannot be decoded is delivered
as such and leaves the buffer as it was. So the calls for characters come to what they would come to
without it, with this one delivery in between, at the place where all that came before it is used
up. -/

set_option autoImplicit false

namespace ExprWasm.Source

namespace Reader

def preceded (reader : Reader) (deliveries : List Delivery) : Reader :=
  { reader with ahead := deliveries ++ reader.ahead }

theorem take_preceded_cons
    (reader : Reader) (delivery : Delivery) (deliveries : List Delivery) (calls : Nat) :
    (reader.preceded (delivery :: deliveries)).take (calls + 1) =
      delivery :: (reader.preceded deliveries).take calls := rfl

theorem length_take (reader : Reader) (calls : Nat) : (reader.take calls).length = calls := by
  induction calls generalizing reader with
  | zero => rfl
  | succ calls inductionHypothesis =>
      rw [take, List.length_cons, inductionHypothesis]

theorem take_take (reader : Reader) {calls more : Nat} (fewer : calls ≤ more) :
    (reader.take more).take calls = reader.take calls := by
  have begins := List.prefix_iff_eq_take.mp (take_isPrefix reader fewer)
  rw [length_take] at begins
  exact begins.symm

theorem take_preceded (reader : Reader) (deliveries : List Delivery) (calls : Nat) :
    (reader.preceded deliveries).take (deliveries.length + calls) =
      deliveries ++ reader.take calls := by
  induction deliveries with
  | nil =>
      rw [List.length_nil, Nat.zero_add]
      rfl
  | cons delivery deliveries inductionHypothesis =>
      rw [List.length_cons, Nat.add_right_comm, take_preceded_cons, inductionHypothesis]
      rfl

/-- One delivery more, after some others. -/
theorem take_inserted
    (reader : Reader) (deliveries : List Delivery) (outcome : Delivery) (calls : Nat) :
    ((reader.deliver outcome).preceded deliveries).take calls =
      (((reader.preceded deliveries).take calls).insertIdx deliveries.length outcome).take calls := by
  induction deliveries generalizing calls with
  | nil =>
      cases calls with
      | zero => rfl
      | succ calls =>
          rw [List.length_nil, List.insertIdx_zero, List.take_succ_cons,
            take_take _ (Nat.le_succ calls)]
          rfl
  | cons delivery deliveries inductionHypothesis =>
      cases calls with
      | zero => rfl
      | succ calls =>
          rw [take_preceded_cons, take_preceded_cons, List.length_cons, List.insertIdx_succ_cons,
            List.take_succ_cons, inductionHypothesis]

end Reader

namespace Buffer

def emptied (buffer : Buffer) : Buffer :=
  { buffer with characters := [] }

/-- What the chunks of a stream come to when all of them have been asked for: the deliveries, and
the buffer with which the next chunk is asked for. There is none if the input has ended by then. -/
def exhaust? (buffer : Buffer) : List Chunk → Option (List Delivery × Buffer)
  | [] => if buffer.finished then none else some (items buffer.characters, buffer.emptied)
  | chunk :: rest =>
      if buffer.finished then none
      else
        (buffer.emptied.receive chunk).2.exhaust? rest |>.map fun later =>
          (items buffer.characters ++ ((buffer.emptied.receive chunk).1.toList ++ later.1), later.2)

section Exhaust

variable {buffer : Buffer}

theorem emptied_ready? (going : buffer.finished = false) : buffer.emptied.ready? = none := by
  unfold ready? emptied
  simp only [going, Bool.false_eq_true, if_false]

theorem reader_emptied (buffer : Buffer) (stream : List Chunk) :
    buffer.reader stream = (buffer.emptied.reader stream).preceded (items buffer.characters) := rfl

theorem reader_of_finished (finished : buffer.finished = true) (stream : List Chunk) :
    buffer.reader stream = ⟨items buffer.characters, none⟩ := by
  rw [reader, if_pos finished, Reader.deliverAll, List.append_nil]
  rfl

/-- A chunk is decoded, or it is refused and changes nothing. -/
theorem receive_cases
    (sound : buffer.Sound) (unready : buffer.ready? = none) (chunk : Chunk) :
    (buffer.receive chunk).2.Sound ∧
      ∀ rest, buffer.reader (chunk :: rest) =
        ((buffer.receive chunk).2.reader rest).preceded (buffer.receive chunk).1.toList := by
  have received := receive_received sound unready chunk
  generalize buffer.receive chunk = result at received
  constructor
  · cases received [] with
    | delivered _ => exact sound
    | decoded soundAfter _ => exact soundAfter
  · intro rest
    cases received rest with
    | delivered same => exact same
    | decoded _ same => exact same

theorem receive_of_refused
    (sound : buffer.Sound) (unready : buffer.ready? = none) {chunk : Chunk} {outcome : Delivery}
    {after : Buffer} (refused : buffer.receive chunk = (some outcome, after)) : after = buffer := by
  have received := receive_received sound unready chunk []
  rw [refused] at received
  cases received with
  | delivered _ => rfl

theorem reader_of_exhaust?
    {stream : List Chunk} {deliveries : List Delivery} {last : Buffer} (sound : buffer.Sound)
    (exhausted : buffer.exhaust? stream = some (deliveries, last)) :
    last.Sound ∧ last.ready? = none ∧
      ∀ rest, buffer.reader (stream ++ rest) = (last.reader rest).preceded deliveries := by
  induction stream generalizing buffer deliveries with
  | nil =>
      rw [exhaust?] at exhausted
      split at exhausted
      · cases exhausted
      · rename_i going
        cases exhausted
        exact ⟨sound, emptied_ready? ((Bool.not_eq_true _).mp going), reader_emptied buffer⟩
  | cons chunk stream inductionHypothesis =>
      rw [exhaust?] at exhausted
      split at exhausted
      · cases exhausted
      · rename_i going
        obtain ⟨⟨later, final⟩, exhaustedLater, same⟩ := Option.map_eq_some_iff.mp exhausted
        cases same
        have unready := emptied_ready? ((Bool.not_eq_true _).mp going)
        obtain ⟨soundAfter, reads⟩ := @receive_cases buffer.emptied sound unready chunk
        obtain ⟨soundLast, unreadyLast, readsLater⟩ := inductionHypothesis soundAfter exhaustedLater
        refine ⟨soundLast, unreadyLast, ?_⟩
        intro rest
        rw [reader_emptied, List.cons_append, reads, readsLater]
        simp only [Reader.preceded, List.append_assoc]

/-- Where the input ends within a stream, nothing that follows is read. -/
theorem reader_of_ended
    {stream : List Chunk} (sound : buffer.Sound) (ended : buffer.exhaust? stream = none) :
    ∃ deliveries, ∀ rest, buffer.reader (stream ++ rest) = ⟨deliveries, none⟩ := by
  induction stream generalizing buffer with
  | nil =>
      rw [exhaust?] at ended
      split at ended
      · rename_i finished
        exact ⟨_, reader_of_finished finished⟩
      · cases ended
  | cons chunk stream inductionHypothesis =>
      rw [exhaust?] at ended
      split at ended
      · rename_i finished
        exact ⟨_, fun rest => reader_of_finished finished _⟩
      · rename_i going
        have unready := emptied_ready? ((Bool.not_eq_true _).mp going)
        obtain ⟨soundAfter, reads⟩ := @receive_cases buffer.emptied sound unready chunk
        obtain ⟨deliveries, endsLater⟩ :=
          inductionHypothesis soundAfter (Option.map_eq_none_iff.mp ended)
        refine ⟨items buffer.characters ++
          ((buffer.emptied.receive chunk).1.toList ++ deliveries), fun rest => ?_⟩
        rw [reader_emptied, List.cons_append, reads, endsLater]
        rfl

end Exhaust

end Buffer

inductive Refusal : Chunk → Delivery → Prop where
  | noData : Refusal .noData (.ok .noData)
  | failure (text : String) : Refusal (.failure text) (.error (.system (.ofText text)))
  | undecodable (bytes : List UInt8) (offset : Int) (reason : String) :
      Refusal (.bytes bytes) (.error (.undecodable offset reason))

theorem Buffer.receive_refusal
    {buffer after : Buffer} {chunk : Chunk} {outcome : Delivery}
    (refused : buffer.receive chunk = (some outcome, after)) : Refusal chunk outcome := by
  cases chunk with
  | noData =>
      cases refused
      exact .noData
  | failure text =>
      cases refused
      exact .failure text
  | bytes bytes =>
      rw [receive] at refused
      split at refused
      · cases refused
        exact .undecodable _ _ _
      · cases refused

/-- The reader of a stream comes to its end before what follows it, which is then never read; or it
asks for the next chunk after some deliveries. If that chunk is refused, the calls come to what they
come to without it, with the refusal in between. -/
theorem refused_read_inserted (before : List Chunk) :
    (Buffer.exhaust? {} before = none →
      ∃ deliveries, ∀ rest, Reader.ofSource (before ++ rest) = ⟨deliveries, none⟩) ∧
    ∀ deliveries buffer, Buffer.exhaust? {} before = some (deliveries, buffer) →
      ∀ chunk outcome after, buffer.receive chunk = (some outcome, after) →
        Refusal chunk outcome ∧ after = buffer ∧
        ∀ rest,
          (Reader.ofSource (before ++ chunk :: rest)).take (deliveries.length + 1) =
            deliveries ++ [outcome] ∧
          ∀ calls,
            (Reader.ofSource (before ++ chunk :: rest)).take calls =
              (((Reader.ofSource (before ++ rest)).take calls).insertIdx deliveries.length
                outcome).take calls ∧
            (⟨before ++ chunk :: rest, {}⟩ : Puller).take calls =
              (Reader.ofSource (before ++ chunk :: rest)).take calls := by
  have sound : Buffer.Sound {} := Nat.le_refl 0
  have same (stream : List Chunk) : Reader.ofSource stream = Buffer.reader {} stream := rfl
  refine ⟨Buffer.reader_of_ended sound, ?_⟩
  intro deliveries buffer exhausted chunk outcome after refused
  obtain ⟨soundLast, unready, reads⟩ := Buffer.reader_of_exhaust? sound exhausted
  have unchanged := Buffer.receive_of_refused soundLast unready refused
  refine ⟨Buffer.receive_refusal refused, unchanged, ?_⟩
  intro rest
  have extra := (Buffer.receive_cases soundLast unready chunk).2 rest
  rw [refused, unchanged] at extra
  have whole : Reader.ofSource (before ++ chunk :: rest) =
      ((buffer.reader rest).deliver outcome).preceded deliveries := by
    rw [same, reads, extra]
    rfl
  constructor
  · rw [whole, Reader.take_preceded]
    rfl
  · intro calls
    refine ⟨?_, Puller.take_eq _ _⟩
    rw [whole, same, reads, Reader.take_inserted]

/-- A letter, and the first byte of a character whose second byte has not come yet. -/
def unfinished : List Chunk :=
  [.bytes [0x61, 0xC3]]

/-- A byte that cannot follow comes first, then the one that was missing, then one that begins
nothing. -/
theorem unfinished_refusal_inserted :
    Buffer.exhaust? {} unfinished = some (items ['a'], ⟨[0xC3], [], 2, false⟩) ∧
      Buffer.receive ⟨[0xC3], [], 2, false⟩ (.bytes [0x28]) =
        (some (.error (.undecodable 1 "invalid continuation byte")), ⟨[0xC3], [], 2, false⟩) ∧
      (Reader.ofSource (unfinished ++ [.bytes [0xA9], .bytes [0xFF]])).take 4 =
        [.ok (.item 'a'), .ok (.item 'é'), .error (.undecodable 3 "invalid start byte"),
          .ok .endOfInput] ∧
      (Reader.ofSource (unfinished ++ .bytes [0x28] :: [.bytes [0xA9], .bytes [0xFF]])).take 4 =
        [.ok (.item 'a'), .error (.undecodable 1 "invalid continuation byte"), .ok (.item 'é'),
          .error (.undecodable 3 "invalid start byte")] := by
  have exhausted : Buffer.exhaust? {} unfinished = some (items ['a'], ⟨[0xC3], [], 2, false⟩) := rfl
  have refused : Buffer.receive ⟨[0xC3], [], 2, false⟩ (.bytes [0x28]) =
      (some (.error (.undecodable 1 "invalid continuation byte")), ⟨[0xC3], [], 2, false⟩) := rfl
  have without : (Reader.ofSource (unfinished ++ [.bytes [0xA9], .bytes [0xFF]])).take 4 =
      [.ok (.item 'a'), .ok (.item 'é'), .error (.undecodable 3 "invalid start byte"),
        .ok .endOfInput] := rfl
  obtain ⟨_, _, inserted⟩ := (refused_read_inserted unfinished).2 _ _ exhausted _ _ _ refused
  have extended := ((inserted [.bytes [0xA9], .bytes [0xFF]]).2 4).1
  rw [without] at extended
  exact ⟨exhausted, refused, without, extended⟩

end ExprWasm.Source
