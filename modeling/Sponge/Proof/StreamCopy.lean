import Sponge.Apps.BidirectionalStreamCopy
import Sponge.Proof.EventLoop

/-!
# Copying loses nothing

`bidirectional_stream_copy` is two lanes, from a descriptor through a `ByteStream` to another one
(`Lane`). The invariant of a lane is kept by its two rules and by their cancellations, and the four
rules cooperate (`cooperate`).

* `run_conserves`: whatever the kernel answers, what was read is what was written, followed by what
  is buffered; the far end is shut down only when the source has finished and everything is written,
  and nothing is read afterwards.
* `run_completes`: when no descriptor hangs up, the copying ends only with both streams finished and
  copied as a whole.
-/

namespace Sponge

open Run

namespace StreamCopy

/-! ## The two ends of a lane -/

/-- What `fill` leaves when it has read `data`. -/
structure Filled (fd : FileDescriptor) (stream : ByteStream) (data : List UInt8)
    (fd' : FileDescriptor) (stream' : ByteStream) : Prop where
  contents : stream'.contents = stream.contents ++ data
  capacity : stream'.capacity = stream.capacity
  error : stream'.error = stream.error
  inputEnded : stream'.inputEnded = (stream.inputEnded || fd'.eof)
  eof : fd.eof = true → fd'.eof = true
  closed : fd'.closed = fd.closed
  readCount : fd'.readCount = fd.readCount + 1

theorem fill_cases (fd : FileDescriptor) (stream : ByteStream) (answer : Except Exn (List UInt8)) :
    (∃ e, (answer = .error e ∨ FileDescriptor.Fault e) ∧
        fill fd stream answer = (fd, stream, .error e)) ∨
      ∃ data fd' stream', fill fd stream answer = (fd', stream', .ok data) ∧
        Filled fd stream data fd' stream' := by
  unfold fill
  rcases fd.read_cases stream.remainingCapacity answer with ⟨e, hcause, he⟩ | ⟨data, -, hle, he⟩
  · rw [he]
    exact .inl ⟨e, hcause, rfl⟩
  · rw [he]
    refine .inr ⟨data, _, _, rfl, ?_⟩
    have hdata : data.take stream.remainingCapacity = data := List.take_of_length_le hle
    dsimp only
    split
    · rename_i heof
      refine ⟨by simp [hdata], by simp, by simp, ?_, fun h => by simp [h], rfl, rfl⟩
      rw [heof, Bool.or_true]
      rfl
    · rename_i heof
      refine ⟨by simp [hdata], by simp, by simp, ?_, fun h => by simp [h], rfl, rfl⟩
      rw [Bool.eq_false_iff.2 heof, Bool.or_false]
      simp

/-- What `drain` leaves when it has written `data`. -/
structure Drained (stream : ByteStream) (data : List UInt8) (stream' : ByteStream) : Prop where
  contents : stream.contents = data ++ stream'.contents
  capacity : stream'.capacity = stream.capacity
  error : stream'.error = stream.error
  inputEnded : stream'.inputEnded = stream.inputEnded

theorem drain_cases (fd : FileDescriptor) (stream : ByteStream) (writev : Nat → Except Exn Nat) :
    (∃ e, (writev 0 = .error e ∨ FileDescriptor.Fault e) ∧
        drain fd stream writev = (fd, stream, .error e)) ∨
      ∃ data stream', drain fd stream writev = (fd.registerWrite, stream', .ok data) ∧
        Drained stream data stream' := by
  unfold drain
  dsimp only
  rcases fd.write_once (.ofString (stream.peekOutput (min maxCopyLength stream.bufferSize)))
    writev with ⟨e, hcause, he⟩ | ⟨n, rest, hn, -, he⟩
  · rw [he]
    exact .inl ⟨e, hcause, rfl⟩
  · rw [he]
    refine .inr ⟨_, _, rfl, ?_, by simp, by simp, by simp⟩
    -- the kernel has taken a part of what was offered, which is the front of the stream
    rw [BufferViewList.size_eq] at hn
    simp only [BufferViewList.ofString, List.flatten_cons, List.flatten_nil, List.append_nil,
      ByteStream.peekOutput_eq, List.length_take] at hn
    rw [ByteStream.peekOutput_eq, ByteStream.contents_popOutput, List.take_take,
      Nat.min_eq_left (by omega), List.take_append_drop]

/-! ## One direction -/

/-- One direction of the copying. -/
structure Lane where
  source : FileDescriptor
  stream : ByteStream
  sink : FileDescriptor
  finished : Bool
  taken : List UInt8
  given : List UInt8

/-- The invariant of a lane; `reader` and `writer` say that its rules have been cancelled, and `H`
that descriptors may hang up. -/
structure Lane.Inv (H reader writer : Prop) (l : Lane) : Prop where
  error : l.stream.error = false
  capacity : l.stream.capacity = 1048576
  conserved : l.taken = l.given ++ l.stream.contents
  atEof : l.source.eof = true → l.stream.inputEnded = true
  ended : l.stream.inputEnded = true → l.source.eof = true ∨ reader ∨ writer
  readerGone : reader → l.stream.inputEnded = true ∧ (l.source.eof = true ∨ H)
  writerGone : writer → l.finished = true ∨ H
  finished : l.finished = true →
    l.stream.contents = [] ∧ l.stream.inputEnded = true ∧ (l.source.eof = true ∨ reader)
  sourceOpen : l.source.closed = false
  sinkClosed : l.sink.closed = true → l.finished = true

variable {H reader writer : Prop} {l : Lane}

/-- **The reader's callback.** -/
theorem Lane.Inv.fill (h : l.Inv H reader writer) (hr : ¬ reader) (heof : l.source.eof = false)
    {data : List UInt8} {source : FileDescriptor} {stream : ByteStream}
    (hf : Filled l.source l.stream data source stream) :
    Lane.Inv H reader writer
      { l with source := source, stream := stream, taken := l.taken ++ data } := by
  have hnot : l.finished = false := by
    refine Bool.eq_false_iff.2 fun hfin => ?_
    rcases (h.finished hfin).2.2 with hend | hgone
    · rw [heof] at hend
      cases hend
    · exact hr hgone
  refine ⟨hf.error.trans h.error, hf.capacity.trans h.capacity, ?_, fun he => ?_, fun he => ?_,
    fun hgone => absurd hgone hr, h.writerGone, fun hfin => ?_, hf.closed.trans h.sourceOpen,
    h.sinkClosed⟩
  · rw [hf.contents, h.conserved, List.append_assoc]
  · have he : source.eof = true := he
    rw [hf.inputEnded, he, Bool.or_true]
  · have he : stream.inputEnded = true := he
    rw [hf.inputEnded, Bool.or_eq_true] at he
    rcases he with he | he
    · rcases h.ended he with hend | hgone
      · rw [heof] at hend
        cases hend
      · exact .inr hgone
    · exact .inl he
  · have hfin : l.finished = true := hfin
    rw [hnot] at hfin
    cases hfin

/-- **The writer's callback**, before it looks whether the stream is at its end. -/
theorem Lane.Inv.drain (h : l.Inv H reader writer) {data : List UInt8} {stream : ByteStream}
    (hd : Drained l.stream data stream) {sink : FileDescriptor}
    (hclosed : sink.closed = l.sink.closed) :
    Lane.Inv H reader writer
      { l with sink := sink, stream := stream, given := l.given ++ data } := by
  refine ⟨hd.error.trans h.error, hd.capacity.trans h.capacity, ?_, fun he => ?_, fun he => ?_,
    fun hgone => ?_, h.writerGone, fun hfin => ?_, h.sourceOpen, fun hc => ?_⟩
  · rw [h.conserved, hd.contents, List.append_assoc]
  · rw [hd.inputEnded]
    exact h.atEof he
  · refine h.ended ?_
    rw [← hd.inputEnded]
    exact he
  · rw [hd.inputEnded]
    exact h.readerGone hgone
  · obtain ⟨hnil, hend, hwhy⟩ := h.finished hfin
    rw [hd.contents, List.append_eq_nil_iff] at hnil
    exact ⟨hnil.2, hd.inputEnded.trans hend, hwhy⟩
  · exact h.sinkClosed (hclosed.symm.trans hc)

/-- **The writer shuts the far end down** once the stream is at its end. -/
theorem Lane.Inv.finish (h : l.Inv H reader writer) (hw : ¬ writer) (heof : l.stream.eof = true)
    (sink : FileDescriptor) :
    Lane.Inv H reader writer { l with sink := sink, finished := true } := by
  obtain ⟨hnil, hend⟩ := l.stream.eof_iff.1 heof
  refine ⟨h.error, h.capacity, h.conserved, h.atEof, h.ended, h.readerGone,
    fun hgone => absurd hgone hw, fun _ => ⟨hnil, hend, ?_⟩, h.sourceOpen, fun _ => rfl⟩
  rcases h.ended hend with hend | hgone | hgone
  · exact .inl hend
  · exact .inr hgone
  · exact absurd hgone hw

/-- **The reader is cancelled**: its source is at its end, or has hung up. -/
theorem Lane.Inv.cancelReader (h : l.Inv H reader writer) (hwhy : l.source.eof = true ∨ H) :
    Lane.Inv H True writer { l with stream := l.stream.endInput } :=
  ⟨h.error, h.capacity, h.conserved, fun _ => rfl, fun _ => .inr (.inl trivial),
    fun _ => ⟨rfl, hwhy⟩, h.writerGone,
    fun hfin => ⟨(h.finished hfin).1, rfl, .inr trivial⟩, h.sourceOpen, h.sinkClosed⟩

/-- **The writer is cancelled**: its sink is closed, or has hung up. -/
theorem Lane.Inv.cancelWriter (h : l.Inv H reader writer) (hwhy : l.sink.closed = true ∨ H) :
    Lane.Inv H reader True { l with stream := l.stream.endInput } := by
  refine ⟨h.error, h.capacity, h.conserved, fun _ => rfl, fun _ => .inr (.inr trivial),
    fun hgone => ⟨rfl, (h.readerGone hgone).2⟩, fun _ => ?_,
    fun hfin => ⟨(h.finished hfin).1, rfl, (h.finished hfin).2.2⟩, h.sourceOpen, h.sinkClosed⟩
  rcases hwhy with hclosed | hup
  · exact .inl (h.sinkClosed hclosed)
  · exact .inr hup

/-- An end that is shut down was given everything. -/
theorem Lane.Inv.given_eq (h : l.Inv H reader writer) (hfin : l.finished = true) :
    l.given = l.taken := by
  rw [h.conserved, (h.finished hfin).1, List.append_nil]

/-- Its descriptors may be used elsewhere, as long as they stay open and are not read. -/
theorem Lane.Inv.elsewhere (h : l.Inv H reader writer) {source sink : FileDescriptor}
    (heof : source.eof = l.source.eof) (hsource : source.closed = l.source.closed)
    (hsink : sink.closed = l.sink.closed) :
    Lane.Inv H reader writer { l with source := source, sink := sink } := by
  refine ⟨h.error, h.capacity, h.conserved, fun he => h.atEof (heof.symm.trans he), fun he => ?_,
    fun hgone => ?_, h.writerGone, fun hfin => ?_, hsource.trans h.sourceOpen,
    fun hc => h.sinkClosed (hsink.symm.trans hc)⟩
  · rw [heof]
    exact h.ended he
  · rw [heof]
    exact h.readerGone hgone
  · rw [heof]
    exact h.finished hfin

/-- A lane on which no rule is interested any more, when nothing has hung up: everything has been
copied. A reader that is still there waits for room, hence the writer is still there and has
something to write. -/
theorem Lane.Inv.quiet (h : l.Inv False reader writer)
    (hread : ¬ reader → l.stream.remainingCapacity = 0)
    (hwrite : ¬ writer → l.stream.contents = [] ∧ (l.stream.eof = true → l.finished = true)) :
    l.source.eof = true ∧ l.finished = true ∧ l.given = l.taken := by
  have hnil : l.stream.contents = [] := by
    by_cases hw : writer
    · rcases h.writerGone hw with hfin | hup
      · exact (h.finished hfin).1
      · exact hup.elim
    · exact (hwrite hw).1
  have hr : reader := by
    by_contra hr
    have hfull := hread hr
    rw [l.stream.remainingCapacity_eq, hnil, h.capacity] at hfull
    cases hfull
  obtain ⟨hend, heof | hup⟩ := h.readerGone hr
  · refine ⟨heof, ?_, by rw [h.conserved, hnil, List.append_nil]⟩
    by_cases hw : writer
    · exact (h.writerGone hw).resolve_right id
    · exact (hwrite hw).2 (l.stream.eof_iff.2 ⟨hnil, hend⟩)
  · exact hup.elim

/-! ## The rules -/

/-- From the standard input to the socket. -/
def outLane (s : StreamCopy) : Lane :=
  ⟨s.input, s.outbound, s.socket, s.outboundShutdown, s.typed, s.sent⟩

/-- From the socket to the standard output. -/
def inLane (s : StreamCopy) : Lane :=
  ⟨s.socket, s.inbound, s.output, s.inboundShutdown, s.received, s.shown⟩

/-- The errors that the kernel answers are in `sys`. -/
def CopyAnswers.Errors (sys : Exn → Prop) (answers : CopyAnswers) : Prop :=
  ∀ e, answers.read = .error e ∨ answers.writev 0 = .error e ∨ answers.shutdown = .error e ∨
    answers.close = .error e → sys e

/-- What a callback can throw. -/
def Throws (sys : Exn → Prop) (e : Exn) : Prop :=
  sys e ∨ FileDescriptor.Fault e ∨ e = .runtimeError "EventLoop: error on polled file descriptor"

/-- What the rest of a writer's callback leaves when `data` was written. -/
structure Wrote (fd : FileDescriptor) (stream : ByteStream) (finished : Bool) (data : List UInt8)
    (fd' : FileDescriptor) (stream' : ByteStream) (finished' : Bool) : Prop where
  drained : Drained stream data stream'
  finished : finished' = finished ∧ fd'.closed = fd.closed ∨ finished' = true ∧ stream'.eof = true
  writeCount : fd'.writeCount ≠ fd.writeCount

theorem Lane.Inv.write (h : l.Inv H reader writer) (hw : ¬ writer) {data : List UInt8}
    {sink : FileDescriptor} {stream : ByteStream} {finished : Bool}
    (hwrote : Wrote l.sink l.stream l.finished data sink stream finished) :
    Lane.Inv H reader writer
      { l with
        sink := sink, stream := stream, finished := finished, given := l.given ++ data } := by
  rcases hwrote.finished with ⟨rfl, hclosed⟩ | ⟨rfl, heof⟩
  · exact h.drain hwrote.drained hclosed
  · have hsame : l.sink.closed = l.sink.closed := rfl
    exact (h.drain hwrote.drained hsame).finish hw heof sink

variable {sys : Exn → Prop} {answers : CopyAnswers}

theorem readInput_cases (hA : CopyAnswers.Errors sys answers) (s : StreamCopy) :
    (∃ e, Throws sys e ∧ readInput answers s = (s, .error e)) ∨
      ∃ data input outbound, Filled s.input s.outbound data input outbound ∧
        readInput answers s =
          ({ s with input := input, outbound := outbound, typed := s.typed ++ data }, .ok ()) := by
  unfold readInput
  rcases fill_cases s.input s.outbound answers.read with ⟨e, he, hf⟩ | ⟨data, fd, st, hf, hfill⟩
  · rw [hf]
    exact .inl ⟨e, he.elim (fun he => .inl (hA e (.inl he))) fun he => .inr (.inl he), rfl⟩
  · rw [hf]
    exact .inr ⟨data, fd, st, hfill, rfl⟩

theorem readSocket_cases (hA : CopyAnswers.Errors sys answers) (s : StreamCopy) :
    (∃ e, Throws sys e ∧ readSocket answers s = (s, .error e)) ∨
      ∃ data socket inbound, Filled s.socket s.inbound data socket inbound ∧
        readSocket answers s =
          ({ s with socket := socket, inbound := inbound, received := s.received ++ data },
            .ok ()) := by
  unfold readSocket
  rcases fill_cases s.socket s.inbound answers.read with ⟨e, he, hf⟩ | ⟨data, fd, st, hf, hfill⟩
  · rw [hf]
    exact .inl ⟨e, he.elim (fun he => .inl (hA e (.inl he))) fun he => .inr (.inl he), rfl⟩
  · rw [hf]
    exact .inr ⟨data, fd, st, hfill, rfl⟩

theorem writeSocket_cases (hA : CopyAnswers.Errors sys answers) (s : StreamCopy) :
    (∃ e, Throws sys e ∧ writeSocket answers s = (s, .error e)) ∨
      ∃ data socket outbound shutdown r,
        Wrote s.socket s.outbound s.outboundShutdown data socket outbound shutdown ∧
        socket.eof = s.socket.eof ∧ socket.closed = s.socket.closed ∧
        (∀ e, r = .error e → Throws sys e) ∧
        writeSocket answers s =
          ({ s with socket := socket, outbound := outbound, outboundShutdown := shutdown,
                    sent := s.sent ++ data }, r) := by
  unfold writeSocket
  rcases drain_cases s.socket s.outbound answers.writev with ⟨e, he, hf⟩ | ⟨data, st, hf, hdrain⟩
  · rw [hf]
    exact .inl ⟨e, he.elim (fun he => .inl (hA e (.inr (.inl he)))) fun he => .inr (.inl he), rfl⟩
  · rw [hf]
    dsimp only
    have hcount := s.socket.writeCount_once
    split
    · rename_i heof
      unfold FileDescriptor.shutdownWrite
      cases hs : answers.shutdown with
      | error e =>
        refine .inr ⟨data, s.socket.registerWrite, st, _, .error e,
          ⟨hdrain, .inl ⟨rfl, rfl⟩, hcount⟩, rfl, rfl, ?_, rfl⟩
        rintro e' he
        cases he
        exact .inl (hA e (.inr (.inr (.inl hs))))
      | ok =>
        exact .inr ⟨data, s.socket.registerWrite.registerWrite, st, true, .ok (),
          ⟨hdrain, .inr ⟨rfl, heof⟩, s.socket.writeCount_twice⟩, rfl, rfl, nofun, rfl⟩
    · exact .inr ⟨data, s.socket.registerWrite, st, _, .ok (),
        ⟨hdrain, .inl ⟨rfl, rfl⟩, hcount⟩, rfl, rfl, nofun, rfl⟩

theorem writeOutput_cases (hA : CopyAnswers.Errors sys answers) (s : StreamCopy) :
    (∃ e, Throws sys e ∧ writeOutput answers s = (s, .error e)) ∨
      ∃ data output inbound shutdown r,
        Wrote s.output s.inbound s.inboundShutdown data output inbound shutdown ∧
        (∀ e, r = .error e → Throws sys e) ∧
        writeOutput answers s =
          ({ s with output := output, inbound := inbound, inboundShutdown := shutdown,
                    shown := s.shown ++ data }, r) := by
  unfold writeOutput
  rcases drain_cases s.output s.inbound answers.writev with ⟨e, he, hf⟩ | ⟨data, st, hf, hdrain⟩
  · rw [hf]
    exact .inl ⟨e, he.elim (fun he => .inl (hA e (.inr (.inl he)))) fun he => .inr (.inl he), rfl⟩
  · rw [hf]
    dsimp only
    have hcount := s.output.writeCount_once
    split
    · rename_i heof
      unfold FileDescriptor.close
      cases hs : answers.close with
      | error e =>
        refine .inr ⟨data, s.output.registerWrite, st, _, .error e,
          ⟨hdrain, .inl ⟨rfl, rfl⟩, hcount⟩, ?_, rfl⟩
        rintro e' he
        cases he
        exact .inl (hA e (.inr (.inr (.inr hs))))
      | ok =>
        exact .inr ⟨data, { s.output.registerWrite with eof := true, closed := true }, st, true,
          .ok (), ⟨hdrain, .inr ⟨rfl, heof⟩, hcount⟩, nofun, rfl⟩
    · exact .inr ⟨data, s.output.registerWrite, st, _, .ok (),
        ⟨hdrain, .inl ⟨rfl, rfl⟩, hcount⟩, nofun, rfl⟩

/-- The invariant of both lanes, with the rules `C` cancelled. -/
structure Inv (H : Prop) (C : Set Name) (s : StreamCopy) : Prop where
  out : (outLane s).Inv H (.readInput ∈ C) (.writeSocket ∈ C)
  in' : (inLane s).Inv H (.readSocket ∈ C) (.writeOutput ∈ C)

/-- A reader relies on its source not being at its end. -/
def Ready : Name → StreamCopy → Prop
  | .readInput, s => s.input.eof = false
  | .readSocket, s => s.socket.eof = false
  | .writeSocket, _ | .writeOutput, _ => True

variable {C : Set Name} {s : StreamCopy}

theorem Inv.callback (hA : CopyAnswers.Errors sys answers) (h : Inv H C s) {k : Name} (hk : k ∉ C)
    (hready : Ready k s) : Inv H C ((rule k).callback answers s).1 := by
  cases k with
  | readInput =>
    show Inv H C (readInput answers s).1
    rcases readInput_cases hA s with ⟨e, -, he⟩ | ⟨data, input, outbound, hf, he⟩
    · rw [he]
      exact h
    · rw [he]
      exact ⟨h.out.fill hk hready hf, h.in'⟩
  | writeSocket =>
    show Inv H C (writeSocket answers s).1
    rcases writeSocket_cases hA s with
      ⟨e, -, he⟩ | ⟨data, socket, outbound, shutdown, r, hw, heof, hclosed, -, he⟩
    · rw [he]
      exact h
    · rw [he]
      exact ⟨h.out.write hk hw, h.in'.elsewhere heof hclosed rfl⟩
  | readSocket =>
    show Inv H C (readSocket answers s).1
    rcases readSocket_cases hA s with ⟨e, -, he⟩ | ⟨data, socket, inbound, hf, he⟩
    · rw [he]
      exact h
    · rw [he]
      exact ⟨h.out.elsewhere rfl rfl hf.closed, h.in'.fill hk hready hf⟩
  | writeOutput =>
    show Inv H C (writeOutput answers s).1
    rcases writeOutput_cases hA s with ⟨e, -, he⟩ | ⟨data, output, inbound, shutdown, r, hw, -, he⟩
    · rw [he]
      exact h
    · rw [he]
      exact ⟨h.out, h.in'.write hk hw⟩

theorem Inv.cancel (h : Inv H C s) {k : Name} (hwhy : (rule k).Dead s ∨ H) :
    Inv H (insert k C) ((rule k).cancel s).1 := by
  cases k with
  | readInput =>
    have hwhy : s.input.eof = true ∨ H := hwhy.imp_left fun hdead => hdead.eof h.out.sourceOpen
    refine ⟨?_, ?_⟩ <;> simp only [Set.mem_insert_iff, reduceCtorEq, false_or, true_or]
    · exact h.out.cancelReader hwhy
    · exact h.in'
  | writeSocket =>
    have hwhy : s.socket.closed = true ∨ H := hwhy.imp_left fun hdead => hdead.closed rfl
    refine ⟨?_, ?_⟩ <;> simp only [Set.mem_insert_iff, reduceCtorEq, false_or, true_or]
    · exact h.out.cancelWriter hwhy
    · exact h.in'
  | readSocket =>
    have hwhy : s.socket.eof = true ∨ H := hwhy.imp_left fun hdead => hdead.eof h.in'.sourceOpen
    refine ⟨?_, ?_⟩ <;> simp only [Set.mem_insert_iff, reduceCtorEq, false_or, true_or]
    · exact h.out
    · exact h.in'.cancelReader hwhy
  | writeOutput =>
    have hwhy : s.output.closed = true ∨ H := hwhy.imp_left fun hdead => hdead.closed rfl
    refine ⟨?_, ?_⟩ <;> simp only [Set.mem_insert_iff, reduceCtorEq, false_or, true_or]
    · exact h.out
    · exact h.in'.cancelWriter hwhy

/-- A reader's source is not at its end while it is polled: the other rules do not read it. -/
theorem Ready.others (hA : CopyAnswers.Errors sys answers) {k k' : Name} (hne : k ≠ k')
    (hready : Ready k' s) : Ready k' ((rule k).callback answers s).1 := by
  cases k with
  | readInput =>
    show Ready k' (readInput answers s).1
    rcases readInput_cases hA s with ⟨e, -, he⟩ | ⟨data, input, outbound, hf, he⟩
    · rwa [he]
    · rw [he]
      cases k' <;> first | exact hready | exact absurd rfl hne
  | writeSocket =>
    show Ready k' (writeSocket answers s).1
    rcases writeSocket_cases hA s with
      ⟨e, -, he⟩ | ⟨data, socket, outbound, shutdown, r, hw, heof, hclosed, -, he⟩
    · rwa [he]
    · rw [he]
      cases k' <;> first | exact heof.trans hready | exact hready
  | readSocket =>
    show Ready k' (readSocket answers s).1
    rcases readSocket_cases hA s with ⟨e, -, he⟩ | ⟨data, socket, inbound, hf, he⟩
    · rwa [he]
    · rw [he]
      cases k' <;> first | exact hready | exact absurd rfl hne
  | writeOutput =>
    show Ready k' (writeOutput answers s).1
    rcases writeOutput_cases hA s with ⟨e, -, he⟩ | ⟨data, output, inbound, shutdown, r, hw, -, he⟩
    · rwa [he]
    · rw [he]
      cases k' <;> exact hready

/-- What a callback throws, and that it uses its descriptor when it does not. -/
theorem callback_result (hA : CopyAnswers.Errors sys answers) (k : Name) (s : StreamCopy) :
    (∀ e, ((rule k).callback answers s).2 = .error e → Throws sys e) ∧
      (((rule k).callback answers s).2 = .ok () →
        (rule k).serviceCount s ≠ (rule k).serviceCount ((rule k).callback answers s).1) := by
  have hthrow : ∀ {e e' : Exn}, Throws sys e →
      (.error e : Except Exn Unit) = .error e' → Throws sys e' := by
    rintro e e' he heq
    cases heq
    exact he
  have hcount : ∀ n : UInt32, n ≠ n + 1 := fun n h => by simp at h
  cases k with
  | readInput =>
    show (∀ e, (readInput answers s).2 = .error e → _) ∧ ((readInput answers s).2 = .ok () →
      s.input.readCount ≠ (readInput answers s).1.input.readCount)
    rcases readInput_cases hA s with ⟨e, hcause, he⟩ | ⟨data, input, outbound, hf, he⟩
    · rw [he]
      exact ⟨fun _ => hthrow hcause, nofun⟩
    · rw [he]
      exact ⟨nofun, fun _ => hf.readCount ▸ hcount _⟩
  | writeSocket =>
    show (∀ e, (writeSocket answers s).2 = .error e → _) ∧ ((writeSocket answers s).2 = .ok () →
      s.socket.writeCount ≠ (writeSocket answers s).1.socket.writeCount)
    rcases writeSocket_cases hA s with
      ⟨e, hcause, he⟩ | ⟨data, socket, outbound, shutdown, r, hw, -, -, hcause, he⟩
    · rw [he]
      exact ⟨fun _ => hthrow hcause, nofun⟩
    · rw [he]
      exact ⟨hcause, fun _ => hw.writeCount.symm⟩
  | readSocket =>
    show (∀ e, (readSocket answers s).2 = .error e → _) ∧ ((readSocket answers s).2 = .ok () →
      s.socket.readCount ≠ (readSocket answers s).1.socket.readCount)
    rcases readSocket_cases hA s with ⟨e, hcause, he⟩ | ⟨data, socket, inbound, hf, he⟩
    · rw [he]
      exact ⟨fun _ => hthrow hcause, nofun⟩
    · rw [he]
      exact ⟨nofun, fun _ => hf.readCount ▸ hcount _⟩
  | writeOutput =>
    show (∀ e, (writeOutput answers s).2 = .error e → _) ∧ ((writeOutput answers s).2 = .ok () →
      s.output.writeCount ≠ (writeOutput answers s).1.output.writeCount)
    rcases writeOutput_cases hA s with
      ⟨e, hcause, he⟩ | ⟨data, output, inbound, shutdown, r, hw, hcause, he⟩
    · rw [he]
      exact ⟨fun _ => hthrow hcause, nofun⟩
    · rw [he]
      exact ⟨hcause, fun _ => hw.writeCount.symm⟩

/-- **The four rules cooperate**, whatever the kernel answers. -/
theorem cooperate (sys : Exn → Prop) (H : Prop) :
    EventLoop.Cooperate rule (CopyAnswers.Errors sys) H (Inv H) Ready (Throws sys) where
  asks C k s _ _ hlive _ := by
    -- a reader at the end of its input would have been cancelled
    cases k with
    | readInput => exact Bool.eq_false_iff.2 fun heof => hlive (.inl ⟨rfl, heof⟩)
    | readSocket => exact Bool.eq_false_iff.2 fun heof => hlive (.inl ⟨rfl, heof⟩)
    | writeSocket | writeOutput => trivial
  callback _ _ _ _ hA hI hk hready := hI.callback hA hk hready
  cancel _ _ _ hI _ hwhy := hI.cancel hwhy
  others _ _ _ _ _ hA hne _ _ hready := Ready.others hA hne hready
  othersCancel C k k' s _ _ hready := by cases k <;> cases k' <;> exact hready
  serves _ k i s hA _ _ hok := .inl ((callback_result hA k s).2 hok)
  throws _ k i s e hA _ _ he := (callback_result hA k s).1 e he
  throwsCancel C k s e _ he := by cases k <;> cases he
  polled := .inr (.inr rfl)

/-! ## Runs -/

/-- The invariant of the loop. -/
structure Loop.Inv (sys : Exn → Prop) (H : Prop) (l : Loop) : Prop where
  rules : ∃ keys : List Name, keys.Sublist names ∧ l.eventloop = ⟨keys.map rule⟩ ∧
    (l.progress = .running → StreamCopy.Inv H (EventLoop.gone keys) l.state)
  lanes : ∃ C, StreamCopy.Inv H C l.state
  throws : ∀ e, l.progress = .threw e → Throws sys e

theorem Loop.inv_start (sys : Exn → Prop) (H : Prop) : Loop.Inv sys H {} := by
  have hnone : ∀ k : Name, ¬ k ∈ EventLoop.gone names := by
    intro k hk
    cases k <;> exact hk (by decide)
  have hI : StreamCopy.Inv H (EventLoop.gone names) {} := by
    refine ⟨⟨rfl, rfl, rfl, nofun, nofun, fun h => absurd h (hnone _), fun h => absurd h (hnone _),
      nofun, rfl, nofun⟩, ⟨rfl, rfl, rfl, nofun, nofun, fun h => absurd h (hnone _),
      fun h => absurd h (hnone _), nofun, rfl, nofun⟩⟩
  exact ⟨⟨names, .refl names, rfl, fun _ => hI⟩, ⟨_, hI⟩, nofun⟩

/-- **One round** keeps the invariant. -/
theorem Loop.Inv.step {l : Loop} (h : Loop.Inv sys H l) {poll : Poll CopyAnswers}
    (hA : EventLoop.Answers (CopyAnswers.Errors sys) H poll) : Loop.Inv sys H (l.step poll) := by
  unfold Loop.step
  split
  · rename_i hrun
    obtain ⟨loop, s, progress⟩ := l
    obtain ⟨keys, hsub, hloop, hI⟩ := h.rules
    have hloop : loop = ⟨keys.map rule⟩ := hloop
    subst hloop
    have hnd : keys.Nodup := hsub.nodup (by decide)
    obtain ⟨keys', heq, hw⟩ := EventLoop.waitNextEvent_waits rule keys hA s
    obtain ⟨hafter, hthrows⟩ := (cooperate sys H).waited hw (EventLoop.apart_gone hnd) (hI hrun)
    dsimp only
    generalize EventLoop.waitNextEvent ⟨keys.map rule⟩ poll s = out at heq hw hafter hthrows
    obtain ⟨loop', s', r⟩ := out
    have hlanes : ∃ C, StreamCopy.Inv H C s' := by
      obtain ⟨C', -, -, hI', -⟩ := hafter
      exact ⟨C', hI'⟩
    cases r with
    | error e =>
      refine ⟨⟨keys', hw.sublist.trans hsub, heq, nofun⟩, hlanes, ?_⟩
      rintro e' he
      cases he
      exact hthrows e rfl
    | ok result =>
      refine ⟨⟨keys', hw.sublist.trans hsub, heq, fun _ => hafter.gone hw.sublist⟩, hlanes, ?_⟩
      intro e he
      dsimp only at he
      split at he <;> cases he
  · exact h

theorem Loop.inv_run {polls : List (Poll CopyAnswers)}
    (hA : ∀ poll ∈ polls, EventLoop.Answers (CopyAnswers.Errors sys) H poll) :
    Loop.Inv sys H (exec Loop.step {} polls) :=
  Guarded.invariant (I := Loop.Inv sys H) (fun _ _ h hA => h.step hA) (Loop.inv_start sys H)
    (guarded_of_mem hA _)

theorem Loop.sent_step {l : Loop} (h : Loop.Inv sys H l) {poll : Poll CopyAnswers}
    (hA : EventLoop.Answers (CopyAnswers.Errors sys) H poll) :
    l.state.sent <+: (l.step poll).state.sent := by
  have hcall : ∀ (k : Name) (i : CopyAnswers) (s : StreamCopy), CopyAnswers.Errors sys i →
      l.state.sent <+: s.sent → l.state.sent <+: ((rule k).callback i s).1.sent := by
    intro k i s hi hs
    refine hs.trans ?_
    cases k with
    | readInput =>
      show s.sent <+: (readInput i s).1.sent
      rcases readInput_cases hi s with ⟨e, -, he⟩ | ⟨data, input, outbound, -, he⟩ <;> simp [he]
    | writeSocket =>
      show s.sent <+: (writeSocket i s).1.sent
      rcases writeSocket_cases hi s with
        ⟨e, -, he⟩ | ⟨data, socket, outbound, shutdown, r, -, -, -, -, he⟩ <;> simp [he]
    | readSocket =>
      show s.sent <+: (readSocket i s).1.sent
      rcases readSocket_cases hi s with ⟨e, -, he⟩ | ⟨data, socket, inbound, -, he⟩ <;> simp [he]
    | writeOutput =>
      show s.sent <+: (writeOutput i s).1.sent
      rcases writeOutput_cases hi s with
        ⟨e, -, he⟩ | ⟨data, output, inbound, shutdown, r, -, -, he⟩ <;> simp [he]
  have hcancel : ∀ (k : Name) (s : StreamCopy), l.state.sent <+: s.sent →
      l.state.sent <+: ((rule k).cancel s).1.sent := by
    intro k s hs
    cases k <;> exact hs
  unfold Loop.step
  split
  · obtain ⟨loop, s, progress⟩ := l
    obtain ⟨keys, -, hloop, -⟩ := h.rules
    have hloop : loop = ⟨keys.map rule⟩ := hloop
    subst hloop
    obtain ⟨keys', -, hw⟩ := EventLoop.waitNextEvent_waits rule keys hA s
    have hsent := hw.invariant hcall hcancel List.prefix_rfl
    dsimp only
    generalize EventLoop.waitNextEvent ⟨keys.map rule⟩ poll s = out at hsent
    obtain ⟨loop', s', _ | _⟩ := out
    · exact hsent
    · exact hsent
  · exact List.prefix_rfl

/-- **Every run**: whatever the kernel answers, what was read from one end is what was written to
the other, followed by what is buffered; an end is shut down only when all of it has been written;
and nothing is thrown but what the kernel answers, a descriptor in error, or an answer that breaks
the contract of `read` and `write`. -/
theorem run_conserves (sys : Exn → Prop) (polls : List (Poll CopyAnswers))
    (hA : ∀ poll ∈ polls, EventLoop.Answers (CopyAnswers.Errors sys) True poll) :
    let l := exec Loop.step {} polls
    l.state.typed = l.state.sent ++ l.state.outbound.contents ∧
      l.state.received = l.state.shown ++ l.state.inbound.contents ∧
      (l.state.outboundShutdown = true → l.state.sent = l.state.typed) ∧
      (l.state.inboundShutdown = true → l.state.shown = l.state.received) ∧
      ∀ e, l.progress = .threw e → Throws sys e := by
  have hinv := Loop.inv_run hA
  obtain ⟨C, hout, hin⟩ := hinv.lanes
  exact ⟨hout.conserved, hin.conserved, hout.given_eq, hin.given_eq, hinv.throws⟩

/-- A byte is read from each end; then the socket hangs up, and the standard output fails. -/
def hangup : List (Poll CopyAnswers) :=
  [.ready [({ pollin := true }, { read := .ok [97] }), ({}, {}),
      ({ pollin := true }, { read := .ok [98] }), ({}, {})],
    .ready [({}, {}), ({ pollhup := true }, {}), ({}, {}),
      ({ pollout := true }, { writev := fun _ => .error (.runtimeError "writev: Broken pipe") })]]

theorem conserves_of_hangup :
    let l := exec Loop.step {} hangup
    l.state.typed = l.state.sent ++ l.state.outbound.contents ∧
      l.state.received = l.state.shown ++ l.state.inbound.contents ∧
      (l.state.outboundShutdown = true → l.state.sent = l.state.typed) ∧
      (l.state.inboundShutdown = true → l.state.shown = l.state.received) ∧
      ∀ e, l.progress = .threw e → Throws (· = .runtimeError "writev: Broken pipe") e :=
  run_conserves _ hangup <| by
    simp only [hangup, List.forall_mem_cons, EventLoop.Answers, CopyAnswers.Errors]
    simp

/-- A cancellation does not make an earlier rule interested. -/
theorem quiet_names : names.Pairwise fun k k' => ∀ s, (rule k).interest s = false →
    (rule k).interest ((rule k').cancel s).1 = false := by
  simp only [names, List.pairwise_cons, List.mem_cons, List.not_mem_nil, or_false, forall_eq_or_imp,
    forall_eq, false_imp_iff, implies_true, List.Pairwise.nil, and_true]
  exact ⟨⟨fun _ h => h, fun _ h => h, fun _ h => h⟩, ⟨fun _ h => h, fun _ h => h⟩, fun _ h => h⟩

/-- Both ends have finished, and everything has been copied. -/
structure Copied (s : StreamCopy) : Prop where
  input : s.input.eof = true
  socket : s.socket.eof = true
  outboundShutdown : s.outboundShutdown = true
  inboundShutdown : s.inboundShutdown = true
  sent : s.sent = s.typed
  shown : s.shown = s.received

/-- **No rule is interested** any more: everything has been copied. -/
theorem Inv.copied {keys : List Name} (h : Inv False (EventLoop.gone keys) s)
    (hidle : ∀ k ∈ keys, (rule k).interest s = false) : Copied s := by
  have hthere : ∀ {k : Name}, k ∉ EventLoop.gone keys → (rule k).interest s = false :=
    fun hk => hidle _ (not_not.1 hk)
  have herror : s.outbound.error = false ∧ s.inbound.error = false := ⟨h.out.error, h.in'.error⟩
  have hread : ∀ stream : ByteStream,
      (!false && decide (stream.remainingCapacity > 0) && !false) = false →
        stream.remainingCapacity = 0 := fun stream hi => by simpa using hi
  have hwrite : ∀ (stream : ByteStream) (finished : Bool),
      (!stream.bufferEmpty || (stream.eof && !finished)) = false →
        stream.contents = [] ∧ (stream.eof = true → finished = true) := by
    intro stream finished hi
    simp only [Bool.or_eq_false_iff, Bool.not_eq_false', Bool.and_eq_false_iff] at hi
    refine ⟨stream.bufferEmpty_iff.1 hi.1, fun heof => ?_⟩
    rcases hi.2 with hno | hfin
    · rw [heof] at hno
      cases hno
    · exact hfin
  obtain ⟨hieof, hofin, hosent⟩ := h.out.quiet
    (fun hr => hread s.outbound (by simpa [rule, herror] using hthere hr))
    (fun hw => hwrite s.outbound s.outboundShutdown (hthere hw))
  obtain ⟨hseof, hifin, hishown⟩ := h.in'.quiet
    (fun hr => hread s.inbound (by simpa [rule, herror] using hthere hr))
    (fun hw => hwrite s.inbound s.inboundShutdown (hthere hw))
  exact ⟨hieof, hseof, hofin, hifin, hosent, hishown⟩

theorem Loop.Inv.step_copied {l : Loop} (h : Loop.Inv sys False l) {poll : Poll CopyAnswers}
    (hA : EventLoop.Answers (CopyAnswers.Errors sys) False poll) (hp : poll ≠ .interrupted)
    (hcopied : l.progress = .returned → Copied l.state)
    (hret : (l.step poll).progress = .returned) : Copied (l.step poll).state := by
  by_cases hrun : l.progress = .running
  swap
  · have hstop : l.step poll = l := by
      unfold Loop.step
      rw [if_neg hrun]
    rw [hstop] at hret ⊢
    exact hcopied hret
  obtain ⟨loop, s, progress⟩ := l
  obtain ⟨keys, hsub, hloop, hI⟩ := h.rules
  have hloop : loop = ⟨keys.map rule⟩ := hloop
  subst hloop
  have hnd : keys.Nodup := hsub.nodup (by decide)
  obtain ⟨keys', heq, hw⟩ := EventLoop.waitNextEvent_waits rule keys hA s
  unfold Loop.step at hret ⊢
  rw [if_pos hrun] at hret ⊢
  dsimp only at hret ⊢
  obtain ⟨hafter, -⟩ := (cooperate sys False).waited hw (EventLoop.apart_gone hnd) (hI hrun)
  generalize EventLoop.waitNextEvent ⟨keys.map rule⟩ poll s = out at heq hw hafter hret
  obtain ⟨loop', s', r⟩ := out
  cases r with
  | error e => cases hret
  | ok result =>
    dsimp only at hret hw hafter ⊢
    split at hret
    · rename_i hexit
      subst hexit
      have hI' := hafter.gone hw.sublist
      generalize hr : (.ok .exit : Except Exn EventLoop.Result) = r at hw
      cases hw with
      | threw | timeout => cases hr
      | interrupted hint => exact absurd hint hp
      | @served _ _ _ _ _ r => cases r <;> cases hr
      | @idle _ _ ks asks hidle =>
        refine hI'.copied fun k hk => ?_
        obtain ⟨⟨k, b⟩, hmem, rfl⟩ := List.mem_map.1 hk
        have hb : b = false := hidle _ hmem
        subst hb
        exact asks.uninterested (quiet_names.sublist hsub) k hmem
    · cases hret

/-- **The copying is complete**: when no descriptor hangs up and `poll` is not interrupted,
`bidirectional_stream_copy` returns only with both ends at their end, and all that was read from
each end written to the other. -/
theorem run_completes (sys : Exn → Prop) (polls : List (Poll CopyAnswers))
    (hA : ∀ poll ∈ polls, EventLoop.Answers (CopyAnswers.Errors sys) False poll ∧
      poll ≠ .interrupted)
    (hret : (exec Loop.step {} polls).progress = .returned) :
    Copied (exec Loop.step {} polls).state := by
  have hinv := Guarded.invariant
    (I := fun l => Loop.Inv sys False l ∧ (l.progress = .returned → Copied l.state))
    (fun _ _ h hA => ⟨h.1.step hA.1, h.1.step_copied hA.1 hA.2 h.2⟩)
    ⟨Loop.inv_start sys False, nofun⟩ (guarded_of_mem hA _)
  exact hinv.2 hret

/-- A byte is read from each end and then the end of both, while the bytes are written. -/
def session : List (Poll CopyAnswers) :=
  [.ready [({ pollin := true }, { read := .ok [97] }), ({}, {}),
      ({ pollin := true }, { read := .ok [98] }), ({}, {})],
    .ready [({ pollin := true }, {}), ({ pollout := true }, { writev := fun _ => .ok 1 }),
      ({ pollin := true }, {}), ({ pollout := true }, { writev := fun _ => .ok 1 })],
    .timeout]

theorem completes_of_session : (exec Loop.step {} session).progress = .returned ∧
    Copied (exec Loop.step {} session).state :=
  have hret : (exec Loop.step {} session).progress = .returned := by decide +kernel
  ⟨hret, run_completes (fun _ => False) session
    (by
      simp only [session, List.forall_mem_cons, EventLoop.Answers, CopyAnswers.Errors]
      simp) hret⟩

end StreamCopy

end Sponge
