import InteractiveProxy.GuardedRun
import InteractiveProxy.JsonEncoding
import InteractiveProxy.ScriptedReader

/-! The reader that streams a request body with the token of its model replaced: whatever the pieces
of its source and the buffers of its caller, the source in front of the token, the new token, and
the source behind it. -/
namespace InteractiveProxy.LargeBody

open GoText GuardedRun JsonEncoding ScriptedReader

structure Span where
  offset : ℤ
  length : ℤ

inductive SpliceError
  | emptyModel
  | negativeSource (size : ℤ)
  | negativeOffset (offset : ℤ)
  | negativeLength (length : ℤ)
  | endOverflow (offset length : ℤ)
  | emptySpan
  | shortSpan (length : ℤ)
  | offsetBeyond (offset size : ℤ)
  | endBeyond (stop size : ℤ)
  | negativePart (length : ℤ)
  | lengthOverflow (a b : ℤ)

/-- `Span.End` of the source. -/
def Span.stop (s : Span) : Except SpliceError ℤ := do
  reject (s.offset > maxInt64 - s.length) (.endOverflow s.offset s.length)
  return s.offset + s.length

def Span.validate (s : Span) : Except SpliceError Unit := do
  reject (s.offset < 0) (.negativeOffset s.offset)
  reject (s.length < 0) (.negativeLength s.length)
  let _ ← s.stop
  return ()

def validateModelSpan (sourceSize : ℤ) (span : Span) : Except SpliceError Unit := do
  reject (sourceSize < 0) (.negativeSource sourceSize)
  span.validate
  reject (span.length = 0) .emptySpan
  reject (span.length < 2) (.shortSpan span.length)
  let spanEnd ← span.stop
  reject (span.offset > sourceSize) (.offsetBeyond span.offset sourceSize)
  reject (spanEnd > sourceSize) (.endBeyond spanEnd sourceSize)

def checkedAdd (a b : ℤ) : Except SpliceError ℤ := do
  reject (b > 0 ∧ a > maxInt64 - b) (.lengthOverflow a b)
  return a + b

def checkedSpliceLength (prefixLen replacementLen suffixLen : ℤ) : Except SpliceError ℤ := do
  -- the source checks the three parts in the order of a map, which is not fixed
  [prefixLen, replacementLen, suffixLen].forM fun v => reject (v < 0) (.negativePart v)
  let front ← checkedAdd prefixLen replacementLen
  checkedAdd front suffixLen

variable (decode : GoStr → Option GoStr)

/-- Whether a name is a complete JSON string token already; `decode` is `json.Unmarshal` into a
string. -/
def isEncoded (model : GoStr) : Bool :=
  2 ≤ model.length && model.head? == some 0x22 && model.getLast? == some 0x22 &&
    (decode model).any (trimSpace · != [])

def encodeModelToken (model : GoStr) : Except SpliceError GoStr :=
  if trimSpace model = [] then .error .emptyModel
  else if isEncoded decode model then .ok model
  else .ok (quote model)

inductive ReadError
  | eof
  | unexpectedEOF
  | spliceClosed
  | stalled
  deriving DecidableEq

structure SpliceReader where
  source : Reader UInt8
  replacementBytes : GoStr
  rewrittenLength : ℤ
  prefixRemaining : ℕ
  spanDiscardRemaining : ℕ
  replacementOffset : ℕ
  suffixRemaining : ℕ
  closed : Bool

structure Outcome where
  data : GoStr
  err : Option ReadError
  reader : SpliceReader

namespace SpliceReader

variable (s : SpliceReader)

/-- The return of `Read` behind its loop. -/
def finish (data : GoStr) : Outcome :=
  if data = [] then ⟨[], some .eof, s⟩ else ⟨data, none, s⟩

/-- The return of `Read` when the source reports its end in front of the suffix, with `owed` bytes
still to read. -/
def stopEarly (owed : ℕ) (data : GoStr) : Outcome :=
  if 0 < owed then ⟨data, some .unexpectedEOF, s⟩
  else if data ≠ [] then ⟨data, none, s⟩
  else ⟨[], some .eof, s⟩

/-- The return of `Read` when the source reports its end in the suffix. -/
def stopInSuffix (data : GoStr) : Outcome :=
  if 0 < s.suffixRemaining then ⟨data, some .unexpectedEOF, s⟩ else ⟨data, some .eof, s⟩

def scratchSize : ℕ := 512

def takePrefix (got : Answer UInt8) : SpliceReader :=
  { s with source := got.reader, prefixRemaining := s.prefixRemaining - got.data.length }

def seekSpan : SpliceReader :=
  { s with source := s.source.seek s.spanDiscardRemaining, spanDiscardRemaining := 0 }

@[simp] def discard (got : Answer UInt8) : SpliceReader :=
  { s with source := got.reader, spanDiscardRemaining := s.spanDiscardRemaining - got.data.length }

def replacementLeft : GoStr := s.replacementBytes.drop s.replacementOffset

def emit (data : GoStr) : SpliceReader :=
  { s with replacementOffset := s.replacementOffset + data.length }

@[simp] def takeSuffix (got : Answer UInt8) : SpliceReader :=
  { s with source := got.reader, suffixRemaining := s.suffixRemaining - got.data.length }

/-- The loop of `Read`, with the bytes copied so far and the room left in the buffer. Every turn
uses up some of the source, of its script or of the replacement, and `stalled` is never reached. -/
def readLoop : ℕ → SpliceReader → GoStr → ℕ → Outcome
  | 0, s, data, _ => ⟨data, some .stalled, s⟩
  | fuel + 1, s, data, room =>
    if room = 0 then s.finish data
    else if 0 < s.prefixRemaining then
      let got := s.source.read (min s.prefixRemaining room)
      let next := s.takePrefix got
      if got.eof then next.stopEarly next.prefixRemaining (data ++ got.data)
      else readLoop fuel next (data ++ got.data) (room - got.data.length)
    else if 0 < s.spanDiscardRemaining then
      if s.source.seekable then readLoop fuel s.seekSpan data room
      else
        let got := s.source.pull scratchSize s.spanDiscardRemaining
        let next := s.discard got
        if got.eof then next.stopEarly next.spanDiscardRemaining data
        else readLoop fuel next data room
    else if s.replacementLeft ≠ [] then
      let piece := s.replacementLeft.take room
      readLoop fuel (s.emit piece) (data ++ piece) (room - piece.length)
    else if 0 < s.suffixRemaining then
      let got := s.source.read (min s.suffixRemaining room)
      let next := s.takeSuffix got
      if got.eof then next.stopInSuffix (data ++ got.data)
      else readLoop fuel next (data ++ got.data) (room - got.data.length)
    else s.finish data

def work (s : SpliceReader) : ℕ := s.source.work + s.replacementLeft.length

/-- `Read` into a buffer of `len` bytes. -/
def read (len : ℕ) : Outcome :=
  if s.closed then ⟨[], some .spliceClosed, s⟩
  else if len = 0 then ⟨[], none, s⟩
  else readLoop (s.work + 1) s [] len

/-- The size of the buffer of `io.CopyN`. -/
def copyBlock : ℕ := 32768

/-- The span skipped by `WriteTo`: with `Seek`, or with `io.CopyN` into nothing. -/
def skipSpan : SpliceReader :=
  if s.source.seekable then s.seekSpan
  else s.discard (s.source.pull copyBlock s.spanDiscardRemaining)

/-- `WriteTo`, from the replacement on. -/
def writeTail (written : GoStr) : Outcome :=
  let token := s.replacementLeft
  let mid := s.emit token
  let got := mid.source.pull copyBlock mid.suffixRemaining
  let last := mid.takeSuffix got
  if 0 < last.suffixRemaining then ⟨written ++ token ++ got.data, some .unexpectedEOF, last⟩
  else ⟨written ++ token ++ got.data, none, last⟩

/-- `WriteTo`, with the bytes it writes. `io.CopyN` fails with the end of its source only when it
has copied less than it was asked for. -/
def writeTo : Outcome :=
  if s.closed then ⟨[], some .spliceClosed, s⟩
  else
    let got := s.source.pull copyBlock s.prefixRemaining
    let front := s.takePrefix got
    if 0 < front.prefixRemaining then ⟨got.data, some .unexpectedEOF, front⟩
    else
      let mid := front.skipSpan
      if 0 < mid.spanDiscardRemaining then ⟨got.data, some .unexpectedEOF, mid⟩
      else mid.writeTail got.data

/-- One `Read` for each buffer size until one of them returns an error, with all that they hand out.
-/
def reads (s : SpliceReader) : List ℕ → Outcome
  | [] => ⟨[], none, s⟩
  | len :: rest =>
    match s.read len with
    | ⟨data, none, next⟩ =>
      let more := next.reads rest
      { more with data := data ++ more.data }
    | ⟨data, some err, next⟩ => ⟨data, some err, next⟩

end SpliceReader

def spliceModelTokenReader (r : Reader UInt8) (sourceSize : ℤ) (span : Span)
    (replacement : GoStr) : Except SpliceError SpliceReader := do
  let encodedToken ← encodeModelToken decode replacement
  validateModelSpan sourceSize span
  let spanEnd ← span.stop
  let rewrittenLen ← checkedSpliceLength span.offset encodedToken.length (sourceSize - spanEnd)
  return {
    source := r
    replacementBytes := encodedToken
    rewrittenLength := rewrittenLen
    prefixRemaining := span.offset.toNat
    spanDiscardRemaining := span.length.toNat
    replacementOffset := 0
    suffixRemaining := (sourceSize - spanEnd).toNat
    closed := false }

open List SpliceReader

namespace SpliceReader

/-- The counters of an open reader account for what its source has left, and no byte of the token is
out before the span has been discarded. -/
structure Aligned (s : SpliceReader) : Prop where
  rest : s.source.rest.length = s.prefixRemaining + s.spanDiscardRemaining + s.suffixRemaining
  span : 0 < s.prefixRemaining → 0 < s.spanDiscardRemaining
  token : 0 < s.spanDiscardRemaining → s.replacementLeft ≠ []
  opened : s.closed = false

def pending (s : SpliceReader) : GoStr :=
  s.source.rest.take s.prefixRemaining ++ s.replacementLeft ++
    s.source.rest.drop (s.prefixRemaining + s.spanDiscardRemaining)

/-- The source ends with the span, cannot be told to skip it, and reports its end together with its
last bytes. -/
def EndsInSpan (s : SpliceReader) : Prop :=
  s.source.seekable = false ∧ s.source.eofWithData ∧ s.suffixRemaining = 0 ∧
    0 < s.spanDiscardRemaining

section Steps

variable {s : SpliceReader} {n : ℕ} {got : Answer UInt8} (h : s.Aligned)
include h

lemma takePrefix_step (hgot : s.source.Took n got) (hle : n ≤ s.prefixRemaining) :
    (s.takePrefix got).Aligned ∧ s.pending = got.data ++ (s.takePrefix got).pending := by
  refine ⟨⟨?_, fun hpos => h.span ?_, h.token, h.opened⟩, ?_⟩
  · simp only [takePrefix, hgot.rest, hgot.length, length_drop, h.rest]
    omega
  · simp only [takePrefix] at hpos
    omega
  have htake : s.source.rest.take s.prefixRemaining =
      s.source.rest.take n ++ (s.source.rest.drop n).take (s.prefixRemaining - n) := by
    rw [← take_add, Nat.add_sub_cancel' hle]
  have hskip : n + (s.prefixRemaining - n + s.spanDiscardRemaining) =
      s.prefixRemaining + s.spanDiscardRemaining := by
    omega
  simp only [pending, takePrefix, replacementLeft, hgot.length, hgot.rest, htake, drop_drop, hskip,
    append_assoc]
  rw [hgot.data]

variable (hlead : s.prefixRemaining = 0)
include hlead

lemma afterSpan_step {next : SpliceReader}
    (hnext : next = { s with source := next.source, spanDiscardRemaining := 0 })
    (hrest : next.source.rest = s.source.rest.drop s.spanDiscardRemaining) :
    next.Aligned ∧ s.pending = next.pending := by
  have hlen := h.rest
  rw [hnext]
  refine ⟨⟨?_, ?_, ?_, h.opened⟩, ?_⟩
  · simp only [hrest, length_drop]
    omega
  · simp [hlead]
  · simp
  · simp [pending, replacementLeft, hrest, hlead]

lemma seekSpan_step : s.seekSpan.Aligned ∧ s.pending = s.seekSpan.pending :=
  afterSpan_step h hlead rfl rfl

lemma discard_step (hgot : s.source.Took s.spanDiscardRemaining got) :
    (s.discard got).Aligned ∧ s.pending = (s.discard got).pending := by
  refine afterSpan_step h hlead ?_ hgot.rest
  simp [hgot.length]

lemma emit_step (hspan : s.spanDiscardRemaining = 0) (room : ℕ) :
    (s.emit (s.replacementLeft.take room)).Aligned ∧
      s.pending = s.replacementLeft.take room ++ (s.emit (s.replacementLeft.take room)).pending := by
  refine ⟨⟨h.rest, h.span, ?_, h.opened⟩, ?_⟩
  · simp [emit, hspan]
  have hdrop :
      (s.emit (s.replacementLeft.take room)).replacementLeft = s.replacementLeft.drop room := by
    simp only [replacementLeft, emit, ← drop_drop, length_take, drop_eq_drop_iff]
    omega
  simp only [pending, hdrop]
  simp [emit, hlead, ← append_assoc]

lemma takeSuffix_step (hspan : s.spanDiscardRemaining = 0)
    (htoken : s.replacementLeft = []) (hgot : s.source.Took n got) (hle : n ≤ s.suffixRemaining) :
    (s.takeSuffix got).Aligned ∧ s.pending = got.data ++ (s.takeSuffix got).pending := by
  have hlen := h.rest
  refine ⟨⟨?_, h.span, h.token, h.opened⟩, ?_⟩
  · simp only [takeSuffix, hgot.rest, hgot.length, length_drop]
    omega
  · have hleft : (s.takeSuffix got).replacementLeft = [] := htoken
    simp only [pending, htoken, hleft]
    simp [hspan, hgot.data, hgot.rest]

end Steps

/-- What a pass through the loop has done with `data` already copied and `room` left: it has handed
out more of what was pending, it reports the end only when nothing is pending, and it leaves the
span alone as long as the room does not reach beyond the prefix. -/
structure Delivered (s : SpliceReader) (data : GoStr) (room : ℕ) (out : Outcome) : Prop where
  more : ∃ piece, out.data = data ++ piece ∧ s.pending = piece ++ out.reader.pending
  aligned : out.reader.Aligned
  err : (out.err = none ∧ out.data ≠ []) ∨ (out.err = some .eof ∧ out.reader.pending = [])
  front : out.reader.prefixRemaining = s.prefixRemaining - room
  span : out.reader.spanDiscardRemaining = if room ≤ s.prefixRemaining then s.spanDiscardRemaining
    else 0
  suffix : room ≤ s.prefixRemaining → out.reader.suffixRemaining = s.suffixRemaining
  eofWithData : out.reader.source.eofWithData = s.source.eofWithData
  seekable : out.reader.source.seekable = s.source.seekable

variable {s next : SpliceReader} {data piece : GoStr} {room : ℕ} {out : Outcome}

section Delivered

variable (h : next.Delivered (data ++ piece) (room - piece.length) out)
  (hpending : s.pending = piece ++ next.pending)
include h hpending

lemma Delivered.more_after :
    ∃ piece, out.data = data ++ piece ∧ s.pending = piece ++ out.reader.pending := by
  obtain ⟨rest, hdata, hrest⟩ := h.more
  exact ⟨piece ++ rest, by rw [hdata, append_assoc], by rw [hpending, hrest, append_assoc]⟩

lemma Delivered.after_lead (hle : piece.length ≤ room)
    (hnext : next = { s with source := next.source, prefixRemaining := s.prefixRemaining - piece.length })
    (hlen : piece.length ≤ s.prefixRemaining)
      (heof : next.source.eofWithData = s.source.eofWithData)
    (hseek : next.source.seekable = s.source.seekable) : s.Delivered data room out := by
  have hfront : next.prefixRemaining = s.prefixRemaining - piece.length := by rw [hnext]
  have hspan : next.spanDiscardRemaining = s.spanDiscardRemaining := by rw [hnext]
  have hsuffix : next.suffixRemaining = s.suffixRemaining := by rw [hnext]
  have hiff : room - piece.length ≤ s.prefixRemaining - piece.length ↔
    room ≤ s.prefixRemaining := by omega
  refine ⟨h.more_after hpending, h.aligned, h.err, ?_, ?_, fun hroom => ?_,
    h.eofWithData.trans heof, h.seekable.trans hseek⟩
  · have := h.front
    omega
  · rw [h.span, hfront, hspan]
    simp only [hiff]
  · rw [h.suffix (by omega), hsuffix]

lemma Delivered.after_span (hroom : 0 < room) (hlead : s.prefixRemaining = 0)
    (hfront : next.prefixRemaining = 0) (hspan : next.spanDiscardRemaining = 0)
    (heof : next.source.eofWithData = s.source.eofWithData)
    (hseek : next.source.seekable = s.source.seekable) : s.Delivered data room out := by
  refine ⟨h.more_after hpending, h.aligned, h.err, ?_, ?_, fun hle => ?_, h.eofWithData.trans heof,
    h.seekable.trans hseek⟩
  · have := h.front
    omega
  · rw [h.span, hspan, ite_self, if_neg (by omega)]
  · omega

end Delivered

lemma Delivered.after_quiet (h : next.Delivered data room out) (hpending : s.pending = next.pending)
    (hroom : 0 < room) (hlead : s.prefixRemaining = 0) (hfront : next.prefixRemaining = 0)
    (hspan : next.spanDiscardRemaining = 0) (heof : next.source.eofWithData = s.source.eofWithData)
    (hseek : next.source.seekable = s.source.seekable) : s.Delivered data room out :=
  Delivered.after_span (by rwa [append_nil]) hpending hroom hlead hfront hspan heof hseek

lemma finish_delivered (h : s.Aligned) (hroom : room = 0) (hdata : data ≠ []) :
    s.Delivered data room (s.finish data) := by
  rw [finish, if_neg hdata]
  exact ⟨⟨[], by simp, rfl⟩, h, .inl ⟨rfl, hdata⟩, by simp [hroom], by simp [hroom], fun _ => rfl, rfl, rfl⟩

lemma finish_exhausted (h : s.Aligned) (hlead : s.prefixRemaining = 0)
    (hspan : s.spanDiscardRemaining = 0) (hpending : s.pending = []) :
    s.Delivered data room (s.finish data) := by
  unfold finish
  split
  · rename_i hnil
    exact ⟨⟨[], by simp [hnil], rfl⟩, h, .inr ⟨rfl, hpending⟩, by simp [hlead], by simp [hspan], fun _ => rfl, rfl, rfl⟩
  · rename_i hdata
    exact ⟨⟨[], by simp, rfl⟩, h, .inl ⟨rfl, hdata⟩, by simp [hlead], by simp [hspan], fun _ => rfl, rfl, rfl⟩

def LoopDelivers (fuel : ℕ) : Prop :=
  ∀ (s : SpliceReader) (data : GoStr)
    (room : ℕ), s.work < fuel → s.Aligned → (room = 0 → data ≠ []) →
    (s.EndsInSpan → s.prefixRemaining = 0 → data ≠ []) →
    s.Delivered data room (readLoop fuel s data room)

variable {fuel : ℕ}

lemma work_lt (hfuel : s.work < fuel + 1) (hwork : next.source.work < s.source.work)
    (htoken : next.replacementLeft = s.replacementLeft) : next.work < fuel := by
  simp only [work, htoken] at hfuel ⊢
  omega

lemma pending_exhausted (h : s.Aligned) (hlead : s.prefixRemaining = 0)
    (hspan : s.spanDiscardRemaining = 0)
    (htoken : s.replacementLeft = []) (hsuffix : s.suffixRemaining = 0) : s.pending = [] := by
  have hrest : s.source.rest = [] := length_eq_zero_iff.mp (by rw [h.rest, hlead, hspan, hsuffix])
  simp [pending, htoken, hrest]

section Turn

variable (ih : LoopDelivers fuel) (hfuel : s.work < fuel + 1) (h : s.Aligned) (hroom : 0 < room)
include ih hfuel h hroom

lemma prefix_delivered (hlead : 0 < s.prefixRemaining) :
    s.Delivered data room (readLoop (fuel + 1) s data room) := by
  have hspan := h.span hlead
  have hlen := h.rest
  obtain ⟨hgot, hle, hwork⟩ := s.source.read_spec (min s.prefixRemaining room) (by omega) (by omega)
  rw [readLoop, if_neg hroom.ne', if_pos hlead]
  generalize s.source.read (min s.prefixRemaining room) = got at *
  -- the span is behind the prefix, so the source cannot be at its end
  have heof : got.eof = false := by
    by_contra hend
    have := (hgot.eof.mp (by simpa using hend)).2.1
    omega
  obtain ⟨haligned, hpending⟩ := takePrefix_step h hgot (by omega)
  simp only [heof]
  refine Delivered.after_lead (ih _ _ _ (work_lt hfuel hwork rfl) haligned ?_ ?_) hpending
    (by omega) rfl (by omega)
    hgot.eofWithData hgot.seekable
  · intro hfull
    exact append_ne_nil_of_right_ne_nil data (length_pos_iff.mp (by omega))
  · intro _ (hdone : s.prefixRemaining - got.data.length = 0)
    exact append_ne_nil_of_right_ne_nil data (length_pos_iff.mp (by omega))

variable (hlead : s.prefixRemaining = 0)
include hlead

lemma span_delivered (hspan : 0 < s.spanDiscardRemaining) (hsafe : s.EndsInSpan → data ≠ []) :
    s.Delivered data room (readLoop (fuel + 1) s data room) := by
  have hlen := h.rest
  have hle : s.spanDiscardRemaining ≤ s.source.rest.length := by omega
  rw [readLoop, if_neg hroom.ne', if_neg (by omega), if_pos hspan]
  cases hseekable : s.source.seekable with
  | true =>
    obtain ⟨haligned, hpending⟩ := seekSpan_step h hlead
    have hwork := s.source.seek_work hspan hle
    have hrest := ih s.seekSpan data room (work_lt hfuel hwork rfl) haligned (by omega)
      fun hend => absurd hend.2.2.2 (Nat.lt_irrefl 0)
    exact hrest.after_quiet hpending hroom hlead hlead rfl rfl rfl
  | false =>
    have hgot := s.source.pull_took scratchSize s.spanDiscardRemaining (by decide) hle
    generalize s.source.pull scratchSize s.spanDiscardRemaining = got at *
    obtain ⟨haligned, hpending⟩ := discard_step h hlead hgot
    have hgone : (s.discard got).spanDiscardRemaining = 0 := by simp [hgot.length]
    have hwork := hgot.work
    simp only [Bool.false_eq_true, if_false]
    split
    · -- the end came with the last byte of the span
      rename_i heof
      obtain ⟨-, hall, hwith⟩ := hgot.eof.mp heof
      have hdata := hsafe ⟨hseekable, hwith, by omega, hspan⟩
      rw [stopEarly, hgone, if_neg (Nat.lt_irrefl 0), if_pos hdata]
      exact ⟨⟨[], by simp, hpending⟩, haligned, .inl ⟨rfl, hdata⟩, by simp [hlead],
        by rw [hgone, if_neg (by omega)], fun hle => by omega, hgot.eofWithData, hgot.seekable⟩
    · have hless : (s.discard got).source.work < s.source.work := by
        change got.reader.work < s.source.work
        omega
      have hrest := ih (s.discard got) data room (work_lt hfuel hless rfl) haligned (by omega)
        fun hend => absurd hend.2.2.2 (by omega)
      exact hrest.after_quiet hpending hroom hlead hlead hgone hgot.eofWithData hgot.seekable

variable (hspan : s.spanDiscardRemaining = 0)
include hspan

lemma token_delivered (htoken : s.replacementLeft ≠ []) :
    s.Delivered data room (readLoop (fuel + 1) s data room) := by
  have hlen := length_pos_iff.mpr htoken
  rw [readLoop, if_neg hroom.ne', if_neg (by omega), if_neg (by omega), if_pos htoken]
  obtain ⟨haligned, hpending⟩ := emit_step h hlead hspan room
  have hpiece : 0 < (s.replacementLeft.take room).length := by
    rw [length_take]
    omega
  have hleft : (s.emit (s.replacementLeft.take room)).replacementLeft.length +
      (s.replacementLeft.take room).length =
      s.replacementLeft.length := by
    simp only [replacementLeft, emit, length_drop, length_take] at hlen ⊢
    omega
  refine Delivered.after_span (ih _ _ _ ?_ haligned ?_ ?_) hpending hroom hlead hlead hspan rfl rfl
  · simp only [work] at hfuel ⊢
    change s.source.work + _ < fuel
    omega
  · intro _
    exact append_ne_nil_of_right_ne_nil data (length_pos_iff.mp hpiece)
  · intro hend
    exact absurd hend.2.2.2 (by simp [emit, hspan])

lemma suffix_delivered (htoken : s.replacementLeft = []) (hsuffix : 0 < s.suffixRemaining) :
    s.Delivered data room (readLoop (fuel + 1) s data room) := by
  have hlen := h.rest
  obtain ⟨hgot, hle, hwork⟩ := s.source.read_spec (min s.suffixRemaining room) (by omega) (by omega)
  rw [readLoop, if_neg hroom.ne', if_neg (by omega), if_neg (by omega), if_neg (by simp [htoken]), if_pos hsuffix]
  generalize s.source.read (min s.suffixRemaining room) = got at *
  obtain ⟨haligned, hpending⟩ := takeSuffix_step h hlead hspan htoken hgot (by omega)
  dsimp only
  split
  · rename_i heof
    have hall := (hgot.eof.mp heof).2.1
    have hdone : (s.takeSuffix got).suffixRemaining = 0 := by
      simp only [takeSuffix]
      omega
    have hnil := pending_exhausted haligned hlead hspan htoken hdone
    rw [stopInSuffix, if_neg (by omega)]
    exact ⟨⟨got.data, rfl, hpending⟩, haligned, .inr ⟨rfl, hnil⟩, by simp [hlead],
      by simp [hspan], fun hle => by omega, hgot.eofWithData, hgot.seekable⟩
  · refine Delivered.after_span (ih _ _ _ (work_lt hfuel hwork rfl) haligned ?_ ?_) hpending
      (by omega) hlead hlead
      hspan hgot.eofWithData hgot.seekable
    · intro hfull
      exact append_ne_nil_of_right_ne_nil data (length_pos_iff.mp (by omega))
    · intro hend
      exact absurd hend.2.2.2 (by simp [hspan])

end Turn

lemma readLoop_delivered (fuel : ℕ) : LoopDelivers fuel := by
  induction fuel with
  | zero =>
    intro s data room hfuel
    exact absurd hfuel (Nat.not_lt_zero _)
  | succ fuel ih =>
    intro s data room hfuel h hroom hsafe
    rcases Nat.eq_zero_or_pos room with hzero | hpos
    · rw [readLoop, if_pos hzero]
      exact finish_delivered h hzero (hroom hzero)
    rcases Nat.eq_zero_or_pos s.prefixRemaining with hlead | hlead
    case inr => exact prefix_delivered ih hfuel h hpos hlead
    rcases Nat.eq_zero_or_pos s.spanDiscardRemaining with hspan | hspan
    case inr => exact span_delivered ih hfuel h hpos hlead hspan fun hend => hsafe hend hlead
    by_cases htoken : s.replacementLeft = []
    case neg => exact token_delivered ih hfuel h hpos hlead hspan htoken
    rcases Nat.eq_zero_or_pos s.suffixRemaining with hsuffix | hsuffix
    · rw [readLoop, if_neg hpos.ne', if_neg (by omega), if_neg (by omega),
        if_neg (not_not.mpr htoken), if_neg (by omega)]
      exact finish_exhausted h hlead hspan (pending_exhausted h hlead hspan htoken hsuffix)
    · exact suffix_delivered ih hfuel h hpos hlead hspan htoken hsuffix

variable {s : SpliceReader} {len : ℕ} {sizes rest : List ℕ}

section Reads

variable (h : s.Aligned)
include h

lemma read_delivered (hlen : 0 < len)
    (hsafe : ¬ (s.EndsInSpan ∧ s.prefixRemaining = 0)) : s.Delivered [] len (s.read len) := by
  rw [read, h.opened, if_neg hlen.ne']
  exact readLoop_delivered _ s [] len (Nat.lt_succ_self _) h (by omega)
    fun hend hlead => absurd ⟨hend, hlead⟩ hsafe

lemma read_zero : s.read 0 = ⟨[], none, s⟩ := by
  rw [read, h.opened, if_neg (by simp), if_pos rfl]

lemma read_endsInSpan (hlen : 0 < len) (hend : s.EndsInSpan)
    (hlead : s.prefixRemaining = 0) : (s.read len).data = [] ∧ (s.read len).err = some .eof := by
  obtain ⟨hseek, hwith, hsuffix, hspan⟩ := hend
  have hrest := h.rest
  have hgot := s.source.pull_took scratchSize s.spanDiscardRemaining (by decide) (by omega)
  have heof := hgot.eof.mpr ⟨hspan, by omega, hwith⟩
  rw [read, h.opened, if_neg (by simp), if_neg hlen.ne', readLoop, if_neg hlen.ne',
    if_neg (by omega), if_pos hspan, hseek, if_neg (by simp)]
  simp [heof, stopEarly, hgot.length]

lemma skipSpan_step (hlead : s.prefixRemaining = 0) :
    s.skipSpan.Aligned ∧ s.pending = s.skipSpan.pending ∧ s.skipSpan.prefixRemaining = 0 ∧
      s.skipSpan.spanDiscardRemaining = 0 := by
  have hrest := h.rest
  unfold skipSpan
  split
  · obtain ⟨haligned, hpending⟩ := seekSpan_step h hlead
    exact ⟨haligned, hpending, hlead, rfl⟩
  · have hgot := s.source.pull_took copyBlock s.spanDiscardRemaining (by decide) (by omega)
    obtain ⟨haligned, hpending⟩ := discard_step h hlead hgot
    exact ⟨haligned, hpending, hlead, by simp [hgot.length]⟩

lemma writeTail_delivered (hlead : s.prefixRemaining = 0) (hspan : s.spanDiscardRemaining = 0)
    (written : GoStr) :
    (s.writeTail written).data = written ++ s.pending ∧ (s.writeTail written).err = none := by
  have hrest := h.rest
  have hgot := s.source.pull_took copyBlock s.suffixRemaining (by decide) (by omega)
  have hall : s.suffixRemaining = s.source.rest.length := by omega
  have hdata : (s.source.pull copyBlock s.suffixRemaining).data = s.source.rest := by
    rw [hgot.data, hall, take_length]
  unfold writeTail
  simp only [emit, takeSuffix, hgot.length]
  simp [pending, hlead, hspan, hdata]

/-- `WriteTo` hands out everything that is pending. -/
lemma writeTo_delivered : s.writeTo.data = s.pending ∧ s.writeTo.err = none := by
  have hrest := h.rest
  have hgot := s.source.pull_took copyBlock s.prefixRemaining (by decide) (by omega)
  obtain ⟨haligned, hpending⟩ := takePrefix_step h hgot le_rfl
  have hfront : (s.takePrefix (s.source.pull copyBlock s.prefixRemaining)).prefixRemaining = 0 := by
    simp [takePrefix, hgot.length]
  obtain ⟨hskip, hsame, hfront', hspan⟩ := skipSpan_step haligned hfront
  obtain ⟨hdata, herr⟩ := writeTail_delivered hskip hfront' hspan
    (s.source.pull copyBlock s.prefixRemaining).data
  rw [writeTo, h.opened, if_neg (by simp)]
  rw [if_neg (by omega), if_neg (by omega), hdata, ← hsame, ← hpending]
  exact ⟨rfl, herr⟩

end Reads

/-- The buffers of some of the first reads end where the span begins, and a later one is not empty.
-/
def BreaksAt (offset : ℕ) (sizes : List ℕ) : Prop :=
  ∃ front back, sizes = front ++ back ∧ front.sum = offset ∧ ∃ len ∈ back, 0 < len

lemma breaksAt_cons {offset : ℕ} : BreaksAt offset (len :: rest) ↔
      (offset = 0 ∧ ∃ n ∈ len :: rest, 0 < n) ∨ (len ≤ offset ∧ BreaksAt (offset - len) rest) := by
  constructor
  · rintro ⟨front, back, hsplit, hsum, hback⟩
    cases front with
    | nil =>
      exact .inl ⟨hsum.symm, hsplit ▸ hback⟩
    | cons n front =>
      obtain ⟨rfl, rfl⟩ := cons.inj hsplit
      rw [sum_cons] at hsum
      exact .inr ⟨by omega, front, back, rfl, by omega, hback⟩
  · rintro (⟨rfl, hpos⟩ | ⟨hle, front, back, rfl, hsum, hback⟩)
    · exact ⟨[], _, rfl, rfl, hpos⟩
    · exact ⟨len :: front, back, rfl, by rw [sum_cons]; omega, hback⟩

/-- What a sequence of reads delivers when it is to hand out `whole`: no error but the end, nothing
but `whole` before the end, what is left of `whole` from `WriteTo` before that, and the end after as
many reads as there are bytes. -/
structure Delivers (s : SpliceReader) (sizes : List ℕ) (whole : GoStr) : Prop where
  err : (s.reads sizes).err = none ∨ (s.reads sizes).err = some .eof
  complete : (s.reads sizes).err = some .eof → (s.reads sizes).data = whole
  finished : (s.reads sizes).err = none →
    (s.reads sizes).data ++ (s.reads sizes).reader.writeTo.data = whole ∧
    (s.reads sizes).reader.writeTo.err = none
  ended : whole.length < (sizes.filter (0 < ·)).length → (s.reads sizes).err = some .eof

lemma reads_cons_of_none (h : (s.read len).err = none) (rest : List ℕ) : s.reads (len :: rest) =
      { (s.read len).reader.reads rest with data := (s.read len).data ++ ((s.read len).reader.reads rest).data } := by
  rw [reads]
  generalize s.read len = out at *
  obtain ⟨data, err, next⟩ := out
  cases h
  rfl

lemma reads_cons_of_some {e : ReadError} (h : (s.read len).err = some e)
    (rest : List ℕ) : s.reads (len :: rest) = s.read len := by
  rw [reads]
  generalize s.read len = out at *
  obtain ⟨data, err, next⟩ := out
  cases h
  rfl

lemma reads_zero_cons (h : s.Aligned) (rest : List ℕ) : s.reads (0 :: rest) = s.reads rest := by
  rw [reads, read_zero h]
  rfl

lemma Delivered.endsInSpan {data : GoStr} {room : ℕ} {out : Outcome}
    (h : s.Delivered data room out) : out.reader.EndsInSpan ↔ room ≤ s.prefixRemaining ∧
    s.EndsInSpan := by
  unfold EndsInSpan
  rw [h.span, h.eofWithData, h.seekable]
  split
  · rename_i hle
    rw [h.suffix hle]
    exact ⟨fun hend => ⟨hle, hend⟩, And.right⟩
  · rename_i hle
    exact ⟨fun hend => absurd hend.2.2.2 (Nat.lt_irrefl 0), fun hend => absurd hend.1 hle⟩

lemma Delivers.after_read {whole : GoStr} (h : (s.read len).reader.Delivers rest whole)
    (hnone : (s.read len).err = none) (hdata : (s.read len).data ≠ []) :
    s.Delivers (len :: rest) ((s.read len).data ++ whole) := by
  have heq := reads_cons_of_none hnone rest
  have hpos := length_pos_iff.mpr hdata
  constructor
  case err => simpa only [heq] using h.err
  case complete =>
    intro heof
    rw [heq] at heof ⊢
    exact congrArg _ (h.complete heof)
  case finished =>
    intro herr
    rw [heq] at herr ⊢
    obtain ⟨hall, hwrite⟩ := h.finished herr
    exact ⟨by rw [← hall, append_assoc], hwrite⟩
  case ended =>
    intro hcount
    rw [heq]
    refine h.ended ?_
    have hone : ((len :: rest).filter (0 < ·)).length ≤ (rest.filter (0 < ·)).length + 1 := by
      rw [filter_cons]
      split <;> simp
    rw [length_append] at hcount
    omega

lemma reads_delivers (h : s.Aligned) (hsafe : ¬ (s.EndsInSpan ∧ BreaksAt s.prefixRemaining sizes)) :
    s.Delivers sizes s.pending := by
  induction sizes generalizing s with
  | nil =>
    refine ⟨.inl rfl, nofun, fun _ => ?_, fun hlen => absurd hlen (Nat.not_lt_zero _)⟩
    exact writeTo_delivered h
  | cons len rest ih =>
    rcases Nat.eq_zero_or_pos len with rfl | hlen
    · have hrest :=
        ih h fun ⟨hend, hbreak⟩ => hsafe ⟨hend, breaksAt_cons.mpr (.inr ⟨Nat.zero_le _, hbreak⟩)⟩
      obtain ⟨herr, hcomplete, hfinished, hended⟩ := hrest
      rw [← reads_zero_cons h] at herr hcomplete hfinished hended
      exact ⟨herr, hcomplete, hfinished, fun hcount => hended (by simpa using hcount)⟩
    · have hout := read_delivered h hlen fun ⟨hend, hzero⟩ =>
        hsafe ⟨hend, breaksAt_cons.mpr (.inl ⟨hzero, len, mem_cons_self, hlen⟩)⟩
      obtain ⟨piece, hpiece, hpending⟩ := hout.more
      subst hpiece
      rcases hout.err with ⟨hnone, hdata⟩ | ⟨heof, hnil⟩
      · have hrest : (s.read len).reader.Delivers rest (s.read len).reader.pending := by
          refine ih hout.aligned fun ⟨hend, hbreak⟩ => hsafe ?_
          obtain ⟨hle, hend⟩ := hout.endsInSpan.mp hend
          rw [hout.front] at hbreak
          exact ⟨hend, breaksAt_cons.mpr (.inr ⟨hle, hbreak⟩)⟩
        rw [hpending]
        exact hrest.after_read hnone hdata
      · have heq := reads_cons_of_some heof rest
        rw [hpending, hnil, append_nil]
        exact ⟨by rw [heq]; exact .inr heof, fun _ => by rw [heq],
          fun hnone => by simp [heq, heof] at hnone, fun _ => by rw [heq]; exact heof⟩

lemma reads_lose (h : s.Aligned) (hend : s.EndsInSpan) (hbreak : BreaksAt s.prefixRemaining sizes) :
    (s.reads sizes).err = some .eof ∧ (s.reads sizes).data ≠ s.pending := by
  induction sizes generalizing s with
  | nil =>
    obtain ⟨front, back, hsplit, -, len, hlen, -⟩ := hbreak
    rw [(append_eq_nil_iff.mp hsplit.symm).2] at hlen
    exact absurd hlen not_mem_nil
  | cons len rest ih =>
    have htoken : s.pending ≠ [] := by simp [pending, h.token hend.2.2.2]
    rcases Nat.eq_zero_or_pos len with rfl | hlen
    · rw [reads_zero_cons h]
      refine ih h hend ?_
      rcases breaksAt_cons.mp hbreak with ⟨hzero, n, hn, hpos⟩ | ⟨-, hrest⟩
      · refine ⟨[], rest, rfl, hzero.symm, n, ?_, hpos⟩
        exact (mem_cons.mp hn).resolve_left hpos.ne'
      · exact hrest
    · rcases Nat.eq_zero_or_pos s.prefixRemaining with hlead | hlead
      · obtain ⟨hdata, herr⟩ := read_endsInSpan h hlen hend hlead
        rw [reads_cons_of_some herr, hdata]
        exact ⟨herr, htoken.symm⟩
      · -- the first reads stay in front of the span
        obtain ⟨hle, hrest⟩ := (breaksAt_cons.mp hbreak).resolve_left fun hzero => hlead.ne' hzero.1
        have hout := read_delivered h hlen fun ⟨_, hzero⟩ => hlead.ne' hzero
        obtain ⟨piece, hpiece, hpending⟩ := hout.more
        subst hpiece
        have hend' := hout.endsInSpan.mpr ⟨hle, hend⟩
        have hnone : (s.read len).err = none := by
          rcases hout.err with ⟨hnone, -⟩ | ⟨-, hnil⟩
          · exact hnone
          · simp [pending, hout.aligned.token hend'.2.2.2] at hnil
        obtain ⟨herr, hdata⟩ := ih hout.aligned hend' (hout.front ▸ hrest)
        rw [reads_cons_of_none hnone, hpending]
        exact ⟨herr, fun heq => hdata (append_cancel_left heq)⟩

lemma delivers_iff (h : s.Aligned) (sizes : List ℕ) :
    s.Delivers sizes s.pending ↔ ¬ (s.EndsInSpan ∧ BreaksAt s.prefixRemaining sizes) := by
  refine ⟨fun hdelivers hlost => ?_, reads_delivers h⟩
  obtain ⟨herr, hdata⟩ := reads_lose h hlost.1 hlost.2
  exact hdata (hdelivers.complete herr)

end SpliceReader

def spliced (body : GoStr) (span : Span) (token : GoStr) : GoStr :=
  body.take span.offset.toNat ++ token ++ body.drop (span.offset + span.length).toNat

lemma Span.stop_eq_ok {s : Span} {n : ℤ} : s.stop = .ok n ↔ s.offset + s.length ≤ maxInt64 ∧
    s.offset + s.length = n := by
  unfold Span.stop
  rw [seq_eq_ok, reject_eq_ok]
  constructor
  · rintro ⟨hle, heq⟩
    cases heq
    exact ⟨by omega, rfl⟩
  · rintro ⟨hle, rfl⟩
    exact ⟨by omega, rfl⟩

variable {span : Span} {model : GoStr}

lemma validateModelSpan_ok {sourceSize : ℤ} (h : validateModelSpan sourceSize span = .ok ()) :
    0 ≤ span.offset ∧ 2 ≤ span.length ∧ span.offset + span.length ≤ sourceSize := by
  unfold validateModelSpan Span.validate at h
  simp only [seq_eq_ok, reject_eq_ok, not_lt] at h
  obtain ⟨-, ⟨hoffset, -⟩, -, hlength, h⟩ := h
  obtain ⟨spanEnd, hstop, h⟩ := bind_eq_ok.mp h
  obtain ⟨-, rfl⟩ := Span.stop_eq_ok.mp hstop
  simp only [seq_eq_ok, reject_eq_ok, not_lt] at h
  exact ⟨hoffset, hlength, h.2⟩

lemma checkedAdd_ok {a b n : ℤ} (h : checkedAdd a b = .ok n) : a + b = n := by
  unfold checkedAdd at h
  rw [seq_eq_ok] at h
  exact Except.ok.inj h.2

lemma checkedSpliceLength_ok {a b c n : ℤ} (h : checkedSpliceLength a b c = .ok n) :
    a + b + c = n := by
  unfold checkedSpliceLength at h
  rw [seq_eq_ok] at h
  obtain ⟨front, hfront, h⟩ := bind_eq_ok.mp h.2
  rw [checkedAdd_ok hfront]
  exact checkedAdd_ok h

lemma encodeModelToken_ne_nil {decode : GoStr → Option GoStr} {token : GoStr}
    (h : encodeModelToken decode model = .ok token) : token ≠ [] := by
  unfold encodeModelToken at h
  split at h
  · cases h
  rename_i hmodel
  split at h
  · cases h
    rintro rfl
    exact hmodel rfl
  · cases h
    exact cons_ne_nil _ _

lemma spliceModelTokenReader_ok {decode : GoStr → Option GoStr} {src : Reader UInt8}
    {r : SpliceReader} (h : spliceModelTokenReader decode src src.rest.length span model = .ok r) :
    ∃ token, encodeModelToken decode model = .ok token ∧ r.Aligned ∧
    r.pending = spliced src.rest span token ∧
      (r.pending.length : ℤ) = r.rewrittenLength ∧ r.prefixRemaining = span.offset.toNat ∧
      (r.EndsInSpan ↔ src.seekable = false ∧ src.eofWithData ∧ span.offset + span.length = src.rest.length) := by
  obtain ⟨token, htoken, h⟩ := bind_eq_ok.mp h
  obtain ⟨hvalid, h⟩ := seq_eq_ok.mp h
  obtain ⟨spanEnd, hstop, h⟩ := bind_eq_ok.mp h
  obtain ⟨total, htotal, h⟩ := bind_eq_ok.mp h
  cases h
  obtain ⟨hoffset, hlength, hend⟩ := validateModelSpan_ok hvalid
  obtain ⟨-, rfl⟩ := Span.stop_eq_ok.mp hstop
  have hsum := checkedSpliceLength_ok htotal
  have hskip : span.offset.toNat + span.length.toNat = (span.offset + span.length).toNat := by omega
  refine ⟨token, htoken, ⟨?_, fun _ => ?_, fun _ => encodeModelToken_ne_nil htoken, rfl⟩, ?_, ?_, rfl, ?_⟩
  · dsimp only
    omega
  · dsimp only
    omega
  · simp [pending, replacementLeft, spliced, hskip]
  · simp only [pending, replacementLeft, drop_zero, length_append, length_take, length_drop]
    omega
  · simp only [SpliceReader.EndsInSpan]
    constructor
    · rintro ⟨hseek, hwith, hsuffix, -⟩
      exact ⟨hseek, hwith, by omega⟩
    · rintro ⟨hseek, hwith, hall⟩
      exact ⟨hseek, hwith, by omega, by omega⟩

/-- The splice reader of a body delivers the body with the model token replaced, whatever the pieces
of its source and the buffers of the reads, unless the span ends the body, the source cannot seek
and reports its end with its last bytes, and the buffers break where the span begins. -/
theorem splice_delivers_iff (decode : GoStr → Option GoStr) (src : Reader UInt8) (span : Span)
    (model : GoStr) (r : SpliceReader)
    (h : spliceModelTokenReader decode src src.rest.length span model = .ok r) (sizes : List ℕ) :
    ∃ token, encodeModelToken decode model = .ok token ∧
      ((spliced src.rest span token).length : ℤ) = r.rewrittenLength ∧
      (r.Delivers sizes (spliced src.rest span token) ↔
        ¬ (src.seekable = false ∧ src.eofWithData ∧ span.offset + span.length = src.rest.length ∧
          SpliceReader.BreaksAt span.offset.toNat sizes)) := by
  obtain ⟨token, htoken, haligned, hpending, hlength, hlead, hend⟩ := spliceModelTokenReader_ok h
  refine ⟨token, htoken, hpending ▸ hlength, ?_⟩
  rw [← hpending, delivers_iff haligned, hend, hlead, and_assoc, and_assoc]

def chunkedBody : Reader UInt8 := ⟨lit "[\"old\",1]", [2, 0, 3], true, false⟩

/-- The reads break where the span begins, but bytes follow it. -/
theorem splice_delivers_chunked :
    ∃ r, spliceModelTokenReader (fun _ => none) chunkedBody chunkedBody.rest.length ⟨1, 5⟩
      (lit "new-model") = .ok r ∧ r.Delivers [1, 0, 4, 64] (lit "[\"new-model\",1]") := by
  refine ⟨_, rfl, ?_⟩
  obtain ⟨token, htoken, -, hiff⟩ := splice_delivers_iff (fun _ => none) chunkedBody ⟨1, 5⟩
    (lit "new-model") _ rfl [1, 0, 4, 64]
  cases htoken
  exact hiff.mpr fun hlost => absurd hlost.2.2.1 (by decide)

def tokenBody : Reader UInt8 := ⟨lit "\"old\"", [], true, false⟩

/-- The first read takes the end of the discarded span for the end of the body; `WriteTo` hands out
the token. -/
theorem splice_loses_token :
    ∃ r, spliceModelTokenReader (fun _ => none) tokenBody tokenBody.rest.length ⟨0, 5⟩
      (lit "new") = .ok r ∧ (r.reads [64]).err = some .eof ∧ (r.reads [64]).data = [] ∧
      spliced tokenBody.rest ⟨0, 5⟩ (lit "\"new\"") = lit "\"new\"" ∧
      r.writeTo.err = none ∧ r.writeTo.data = lit "\"new\"" :=
  ⟨_, rfl, by decide, by decide, by decide, by decide, by decide⟩

end InteractiveProxy.LargeBody
