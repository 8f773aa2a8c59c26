import InteractiveProxy.CallRecord
import InteractiveProxy.GuardedRun

/-! The writer that hashes the JSON of a call without holding it: a machine that opens and closes
the arrays of messages, items and parts, and that streams plain texts through a writer that escapes
them in pieces. -/
namespace InteractiveProxy.LargeBody

open GoText Utf8Runes JsonEncoding List GuardedRun

/-- The writer, with what it has handed on in `out`. -/
structure StreamingEscapeWriter where
  out : GoStr
  tail : GoStr
  buf : GoStr
  closed : Bool

inductive EscapeError
  | writeToClosed
  | lengthOverflow

def bufSize : ℕ := 512

def escapeByte (b : UInt8) : GoStr :=
  if b = 0x22 then lit "\\\""
  else if b = 0x5C then lit "\\\\"
  else if b = 0x3C then lit "\\u003c"
  else if b = 0x3E then lit "\\u003e"
  else if b = 0x26 then lit "\\u0026"
  else if b = 0x0A then lit "\\n"
  else if b = 0x0D then lit "\\r"
  else if b = 0x09 then lit "\\t"
  else if b = 0x08 then lit "\\b"
  else if b = 0x0C then lit "\\f"
  else if b < 0x20 then lit "\\u00" ++ [hexDigit (b >>> 4).toNat, hexDigit (b &&& 0x0F).toNat]
  else [b]

def escapeWide (r : GoStr) : GoStr :=
  if r = [0xE2, 0x80, 0xA8] then lit "\\u2028"
  else if r = [0xE2, 0x80, 0xA9] then lit "\\u2029"
  else r

namespace StreamingEscapeWriter

def new (out : GoStr) : StreamingEscapeWriter := ⟨out, [], [], false⟩

variable (s : StreamingEscapeWriter)

def flushBuf : StreamingEscapeWriter := { s with out := s.out ++ s.buf, buf := [] }

def writeByte (b : UInt8) : StreamingEscapeWriter :=
  let s := if bufSize ≤ s.buf.length then s.flushBuf else s
  { s with buf := s.buf ++ [b] }

-- The source copies as much as fits in front of each flush, which leaves the same buffer.
@[simp] def writeDirect (p : GoStr) : StreamingEscapeWriter := p.foldl writeByte s

/-- The loop of `Write` and of `WriteString`. The latter encodes the rune it has decoded, which
gives the bytes back. -/
def writeRunes : ℕ → StreamingEscapeWriter → GoStr → StreamingEscapeWriter
  | 0, s, _ => s
  | _ + 1, s, [] => s
  | fuel + 1, s, b :: rest =>
    if b < 0x80 then writeRunes fuel (s.writeDirect (escapeByte b)) rest
    else
      match scanRune (b :: rest) with
      | .short => { s with tail := b :: rest }
      | .bad => writeRunes fuel (s.writeDirect (lit "\\ufffd")) rest
      | .good n =>
        writeRunes fuel (s.writeDirect (escapeWide ((b :: rest).take n))) ((b :: rest).drop n)

/-- `Write`, with the count it returns. -/
def write (p : GoStr) : Except EscapeError (ℕ × StreamingEscapeWriter) :=
  if s.closed then .error .writeToClosed
  else if (p.length : ℤ) > maxInt64 - s.tail.length then .error .lengthOverflow
  else
    let combined := s.tail ++ p
    .ok (p.length, writeRunes combined.length { s with tail := [] } combined)

/-- `WriteString`. With a tail it returns what `Write` returns for the tail and the string together.
-/
def writeString (str : GoStr) : Except EscapeError (ℕ × StreamingEscapeWriter) :=
  if s.closed then .error .writeToClosed
  else if (str.length : ℤ) > maxInt64 - s.tail.length then .error .lengthOverflow
  else if s.tail ≠ [] then write { s with tail := [] } (s.tail ++ str)
  else .ok (str.length, writeRunes str.length s str)

def close : StreamingEscapeWriter :=
  if s.closed then s
  else
    let s := s.writeDirect (s.tail.flatMap fun _ => lit "\\ufffd")
    { s.flushBuf with tail := [], closed := true }

def text : GoStr := s.out ++ s.buf

@[simp] lemma writeByte_spec (b : UInt8) :
    (s.writeByte b).text = s.text ++ [b] ∧ (s.writeByte b).tail = s.tail ∧
    (s.writeByte b).closed = s.closed := by
  unfold writeByte
  split <;> simp [text, flushBuf]

lemma writeDirect_spec (p : GoStr) :
    (s.writeDirect p).text = s.text ++ p ∧ (s.writeDirect p).tail = s.tail ∧
    (s.writeDirect p).closed = s.closed := by
  induction p generalizing s with
  | nil => simp
  | cons b rest ih =>
    obtain ⟨htext, htail, hclosed⟩ := ih (s.writeByte b)
    exact ⟨by simpa using htext, by simpa using htail, by simpa using hclosed⟩

end StreamingEscapeWriter

variable {b : UInt8}

lemma escapeByte_eq (h : b < 0x80) : escapeByte b = escapeRune (some [b]) := by
  have hall :
    ∀ n < 128, escapeByte (UInt8.ofNat n) = escapeRune (some [UInt8.ofNat n]) := by decide +kernel
  simpa using hall b.toNat (UInt8.lt_iff_toNat_lt.mp h)

lemma scanRune_ascii (h : b < 0x80) (rest : GoStr) : scanRune (b :: rest) = .good 1 := by
  simp [scanRune, h]

variable {rest : GoStr}

lemma scanRune_wide {n : ℕ} (hb : ¬ b < 0x80) (h : scanRune (b :: rest) = .good n) : 2 ≤ n := by
  simp only [scanRune, if_neg hb] at h
  split at h
  · cases h
  split at h
  · cases h
  · split_ifs at h
    have := (scanTail_size h).1
    omega

lemma escapeWide_eq {r : GoStr} (h : 2 ≤ r.length) : escapeWide r = escapeRune (some r) := by
  unfold escapeRune
  split
  · next heq => cases heq
  · next b heq =>
    rw [Option.some.inj heq] at h
    exact absurd h (by simp)
  · next heq => rw [Option.some.inj heq, escapeWide]

variable {s : GoStr} {fuel more : ℕ}

lemma runesN_eq_runesN {fuel' : ℕ} (h : s.length ≤ fuel) (h' : s.length ≤ fuel') :
    runesN fuel s = runesN fuel' s := by
  induction fuel generalizing fuel' s with
  | zero =>
    rw [length_eq_zero_iff.mp (Nat.le_zero.mp h)]
    cases fuel' <;> rfl
  | succ fuel ih =>
    cases s with
    | nil => cases fuel' <;> rfl
    | cons b rest =>
      cases fuel' with
      | zero => cases h'
      | succ fuel' =>
        rw [length_cons] at h h'
        unfold runesN
        split
        · next n hscan =>
          have hsize := scanRune_size hscan
          have hlen : ((b :: rest).drop n).length ≤ rest.length := by
            rw [length_drop, length_cons]
            omega
          exact congrArg (_ :: ·) (ih (by omega) (by omega))
        · exact congrArg (_ :: ·) (ih (by omega) (by omega))

lemma escape_good {n : ℕ} (h : scanRune (b :: rest) = .good n) :
    escape (b :: rest) = escapeRune (some ((b :: rest).take n)) ++ escape ((b :: rest).drop n) := by
  have hsize := (scanRune_size h).1
  have hlen : ((b :: rest).drop n).length ≤ rest.length := by
    rw [length_drop, length_cons]
    omega
  rw [escape, runes, length_cons, runesN, h]
  dsimp only
  rw [runesN_eq_runesN hlen le_rfl]
  rfl

lemma escape_bad (h : ∀ n, scanRune (b :: rest) ≠ .good n) :
    escape (b :: rest) = lit "\\ufffd" ++ escape rest := by
  rw [escape, runes, length_cons, runesN]
  split
  · next n hscan => exact absurd hscan (h n)
  · rfl

lemma scanTail_short {read : ℕ} {p : GoStr} (h : scanTail more read p = .short) :
    (∀ b ∈ p, isContinuation b) ∧ p.length < more := by
  induction more generalizing read p with
  | zero => cases h
  | succ more ih =>
    cases p with
    | nil => exact ⟨nofun, Nat.succ_pos _⟩
    | cons c rest =>
      simp only [scanTail] at h
      split_ifs at h with hc
      obtain ⟨hrest, hlen⟩ := ih h
      exact ⟨forall_mem_cons.mpr ⟨hc, hrest⟩, Nat.succ_lt_succ hlen⟩

lemma runeLead_range {lo hi : UInt8} (h : runeLead b = some (more, lo, hi)) :
    0x80 ≤ lo ∧ hi ≤ 0xBF ∧ more ≤ 2 := by
  unfold runeLead at h
  split_ifs at h <;> cases h <;> decide

lemma scanRune_short (h : scanRune (b :: rest) = .short) :
    (∀ c ∈ rest, isContinuation c) ∧ rest.length ≤ 2 := by
  simp only [scanRune] at h
  split_ifs at h
  split at h
  · cases h
  next more lo hi hlead =>
  split at h
  · exact ⟨forall_mem_nil _, Nat.zero_le _⟩
  split_ifs at h with hc
  obtain ⟨hlo, hhi, hmore⟩ := runeLead_range hlead
  obtain ⟨hrest, hlen⟩ := scanTail_short h
  simp only [Bool.and_eq_true, decide_eq_true_eq] at hc
  refine ⟨forall_mem_cons.mpr ⟨?_, hrest⟩, by rw [length_cons]; omega⟩
  simp only [isContinuation, Bool.and_eq_true, decide_eq_true_eq]
  exact ⟨UInt8.le_trans hlo hc.1, UInt8.le_trans hc.2 hhi⟩

lemma scanRune_continuation {c : UInt8} (h : isContinuation c) (rest : GoStr) :
    scanRune (c :: rest) = .bad := by
  simp only [isContinuation, Bool.and_eq_true, decide_eq_true_eq] at h
  have hlow : ¬ c < 0x80 := UInt8.not_lt.mpr h.1
  have hlead : runeLead c = none := by
    rw [runeLead, if_pos]
    exact UInt8.lt_of_le_of_lt h.2 (by decide)
  simp only [scanRune, if_neg hlow, hlead]

lemma escape_continuation (h : ∀ c ∈ s, isContinuation c) :
    escape s = s.flatMap fun _ => lit "\\ufffd" := by
  induction s with
  | nil => rfl
  | cons c rest ih =>
    obtain ⟨hc, hrest⟩ := forall_mem_cons.mp h
    rw [escape_bad (by simp [scanRune_continuation hc]), ih hrest, flatMap_cons]

lemma escape_short (h : scanRune s = .short) : escape s = s.flatMap fun _ => lit "\\ufffd" := by
  cases s with
  | nil => rfl
  | cons b rest =>
    rw [escape_bad (by simp [h]), escape_continuation (scanRune_short h).1, flatMap_cons]

namespace StreamingEscapeWriter

variable {s : StreamingEscapeWriter}

lemma writeRunes_spec {p : GoStr} (hfuel : p.length ≤ fuel) (htail : s.tail = []) :
    let t := writeRunes fuel s p
    t.closed = s.closed ∧ scanRune t.tail = .short ∧
      ∀ q, s.text ++ escape (p ++ q) = t.text ++ escape (t.tail ++ q) := by
  induction fuel generalizing p s with
  | zero =>
    rw [length_eq_zero_iff.mp (Nat.le_zero.mp hfuel)]
    exact ⟨rfl, by rw [writeRunes, htail]; rfl, fun q => by rw [writeRunes, htail]⟩
  | succ fuel ih =>
    cases p with
    | nil => exact ⟨rfl, by rw [writeRunes, htail]; rfl, fun q => by rw [writeRunes, htail]⟩
    | cons b rest =>
      rw [length_cons] at hfuel
      -- one step of the loop: `piece` is the escape of the first `n` bytes whatever follows them
      have hstep : ∀ (piece : GoStr) (n : ℕ), 1 ≤ n → n ≤ rest.length + 1 →
          (∀ q, escape (b :: rest ++ q) = piece ++ escape ((b :: rest).drop n ++ q)) →
          let t := writeRunes fuel (s.writeDirect piece) ((b :: rest).drop n)
          t.closed = s.closed ∧ scanRune t.tail = .short ∧
            ∀ q, s.text ++ escape (b :: rest ++ q) = t.text ++ escape (t.tail ++ q) := by
        intro piece n hpos hle hescape
        obtain ⟨htext, htail', hclosed⟩ := s.writeDirect_spec piece
        have hlen : ((b :: rest).drop n).length ≤ fuel := by
          rw [length_drop, length_cons]
          omega
        obtain ⟨hc, hshort, hall⟩ := ih hlen (htail'.trans htail)
        refine ⟨hc.trans hclosed, hshort, fun q => ?_⟩
        rw [hescape, ← hall, htext, append_assoc]
      rw [writeRunes]
      split
      · next hb =>
        refine hstep (escapeByte b) 1 le_rfl (by omega) fun q => ?_
        rw [cons_append, escape_good (scanRune_ascii hb _), escapeByte_eq hb]
        rfl
      · next hb =>
        split
        · next hscan => exact ⟨rfl, hscan, fun q => rfl⟩
        · next hscan =>
          refine hstep _ 1 le_rfl (by omega) fun q => ?_
          have happend := scanRune_append (by rw [hscan]; nofun) q
          rw [cons_append] at happend ⊢
          rw [escape_bad (by rw [happend, hscan]; nofun)]
          rfl
        · next n hscan =>
          obtain ⟨hpos, hle⟩ := scanRune_size hscan
          have hwide := scanRune_wide hb hscan
          refine hstep _ n hpos hle fun q => ?_
          have happend := scanRune_append (by rw [hscan]; nofun) q
          rw [hscan, cons_append] at happend
          rw [cons_append, escape_good happend, ← cons_append, take_append_of_le_length hle,
            drop_append_of_le_length hle, escapeWide_eq]
          rw [length_take]
          omega

/-- The state of a writer that stood at `start` and has been given `whole`. -/
structure Escaping (start whole : GoStr) (s : StreamingEscapeWriter) : Prop where
  opened : s.closed = false
  short : scanRune s.tail = .short
  text : ∀ q, start ++ escape (whole ++ q) = s.text ++ escape (s.tail ++ q)

lemma new_escaping (start : GoStr) : Escaping start [] (new start) :=
  ⟨rfl, rfl, fun q => by simp [new, StreamingEscapeWriter.text]⟩

variable {start whole p : GoStr} {n : ℕ} {t : StreamingEscapeWriter} (h : Escaping start whole s)

include h

lemma Escaping.writeRunes (p : GoStr) :
    Escaping start (whole ++ p)
    (writeRunes (s.tail ++ p).length { s with tail := [] } (s.tail ++ p)) := by
  obtain ⟨hclosed, hshort, htext⟩ := writeRunes_spec (s := { s with tail := [] }) le_rfl rfl
  refine ⟨hclosed.trans h.opened, hshort, fun q => ?_⟩
  rw [append_assoc, h.text, ← append_assoc, ← htext q]
  rfl

lemma Escaping.write_ok (hw : s.write p = .ok (n, t)) :
    Escaping start (whole ++ p) t ∧ n = p.length := by
  unfold write at hw
  split_ifs at hw
  cases hw
  exact ⟨h.writeRunes p, rfl⟩

lemma Escaping.writeString_ok (hw : s.writeString p = .ok (n, t)) :
    Escaping start (whole ++ p) t ∧ n = s.tail.length + p.length := by
  have hnext := h.writeRunes p
  unfold StreamingEscapeWriter.writeString write at hw
  split_ifs at hw with _ _ htail
  · cases hw
    exact ⟨hnext, length_append⟩
  · cases hw
    rw [not_not] at htail
    have hsame : { s with tail := [] } = s := by rw [← htail]
    rw [hsame, htail] at hnext
    exact ⟨hnext, by simp [htail]⟩

lemma Escaping.writeString_takes :
    (∃ r, s.writeString p = .ok r) ↔ (p.length : ℤ) ≤ maxInt64 - s.tail.length := by
  have hopen := h.opened
  unfold StreamingEscapeWriter.writeString write
  split_ifs <;> simp_all
  omega

lemma Escaping.writeString (hlen : (p.length : ℤ) + 3 ≤ maxInt64) :
    ∃ n t, s.writeString p = .ok (n, t) ∧ Escaping start (whole ++ p) t := by
  have htail : s.tail.length ≤ 3 := by
    cases hs : s.tail with
    | nil => simp
    | cons b rest =>
      have := (scanRune_short (hs ▸ h.short)).2
      rw [length_cons]
      omega
  obtain ⟨⟨n, t⟩, hw⟩ := h.writeString_takes.mpr (by omega : (p.length : ℤ) ≤ _)
  exact ⟨n, t, hw, (h.writeString_ok hw).1⟩

lemma Escaping.close : s.close.out = start ++ escape whole := by
  obtain ⟨htext, -, -⟩ := s.writeDirect_spec (s.tail.flatMap fun _ => lit "\\ufffd")
  have hall := h.text []
  rw [append_nil, append_nil, escape_short h.short, ← htext] at hall
  rw [StreamingEscapeWriter.close, h.opened, hall]
  rfl

end StreamingEscapeWriter

inductive EscapeCall
  | write (p : GoStr)
  | writeString (str : GoStr)

namespace EscapeCall

open StreamingEscapeWriter

def arg : EscapeCall → GoStr
  | write p => p
  | writeString str => str

def perform (s : StreamingEscapeWriter) :
    EscapeCall → Except EscapeError (ℕ × StreamingEscapeWriter)
  | write p => s.write p
  | writeString str => s.writeString str

/-- A call on the writer, with the text that it has taken so far. A refused call changes nothing. -/
def step (x : StreamingEscapeWriter × GoStr) (c : EscapeCall) : StreamingEscapeWriter × GoStr :=
  match c.perform x.1 with
  | .ok (_, t) => (t, x.2 ++ c.arg)
  | .error _ => x

/-- A call that succeeds returns the length of its argument. -/
def Counts (x : StreamingEscapeWriter × GoStr) (c : EscapeCall) : Prop :=
  ∀ n t, c.perform x.1 = .ok (n, t) → n = c.arg.length

/-- A string that is taken does not find the head of a rune that an earlier call left. -/
def FindsNoTail (x : StreamingEscapeWriter × GoStr) : EscapeCall → Prop
  | write _ => True
  | writeString str => (str.length : ℤ) ≤ maxInt64 - x.1.tail.length → x.1.tail = []

variable {start : GoStr} {x : StreamingEscapeWriter × GoStr} {c : EscapeCall}

section Run

variable (h : Escaping start x.2 x.1)

include h

lemma step_escaping : Escaping start (step x c).2 (step x c).1 := by
  unfold step
  split
  · next hc =>
    cases c with
    | write p => exact (h.write_ok hc).1
    | writeString str => exact (h.writeString_ok hc).1
  · exact h

lemma run_escaping {calls : List EscapeCall} :
    Escaping start (run step x calls).2 (run step x calls).1 := by
  induction calls generalizing x with
  | nil => exact h
  | cons c calls ih => exact ih (step_escaping h)

lemma accepts_iff :
    (∃ result, c.perform x.1 = .ok result) ↔ (c.arg.length : ℤ) ≤ maxInt64 - x.1.tail.length := by
  cases c with
  | write p => simp [perform, arg, StreamingEscapeWriter.write, h.opened, ite_eq_iff]
  | writeString str => exact h.writeString_takes

lemma counts_iff : Counts x c ↔ FindsNoTail x c := by
  cases c with
  | write p => exact iff_of_true (fun n t hw => (h.write_ok hw).2) trivial
  | writeString str =>
    constructor
    · intro hcounts hlen
      obtain ⟨⟨n, t⟩, hw⟩ := h.writeString_takes.mpr hlen
      have hn := hcounts n t hw
      rw [(h.writeString_ok hw).2, arg] at hn
      exact length_eq_zero_iff.mp (by omega)
    · intro hfree n t hw
      have htail := hfree (h.writeString_takes.mp ⟨_, hw⟩)
      simpa [arg, htail] using (h.writeString_ok hw).2

end Run

/-- Whatever the calls, the writer hands on the escape of all that they gave it, and accepts another
just when its argument is not too long. They return the lengths of their arguments just when no
string meets the head of a rune that was cut. -/
theorem calls_escape (calls : List EscapeCall) :
    let r := run step (new [], []) calls
    r.1.close.out = escape r.2 ∧
      (∀ c : EscapeCall, (∃ result, c.perform r.1 = .ok result) ↔ (c.arg.length : ℤ) ≤ maxInt64 - r.1.tail.length) ∧
      (Meets step Counts (new [], []) calls ↔ Meets step FindsNoTail (new [], []) calls) := by
  have h := new_escaping []
  have hrun : Escaping [] (run step (new [], []) calls).2 (run step (new [], []) calls).1 :=
    run_escaping h
  exact ⟨hrun.close, fun c => accepts_iff hrun,
    meets_congr (fun _ _ => step_escaping) (fun _ _ => counts_iff) h calls⟩

/-- The second byte of `é` after the first: the call is given one byte and returns two. -/
theorem writeString_counts_tail :
    ∃ s t, (new []).write [0xC3] = .ok (1, s) ∧ s.writeString [0xA9] = .ok (2, t) :=
    ⟨_, _, rfl, rfl⟩

end EscapeCall

open JsonPieces Lipapi

structure CallIdentityConfig where
  session : SessionRef := {}
  route : RouteIntent := {}
  instructions : Option (List Message) := none
  previousResponseID : GoStr := []
  promptCacheKey : GoStr := []
  semanticExtensions : Option (List SemanticExtension) := none
  tools : Option (List ToolDef) := none
  toolChoice : ToolChoice := {}
  options : GenerationOptions := {}
  extensions : Option (List (GoStr × RawMessage)) := none

structure TextPartCloser where
  sw : StreamingEscapeWriter
  closed : Bool

structure MessageIdentityWriter where
  partCount : ℕ
  currText : Option TextPartCloser
  ended : Bool

structure ItemTextPartCloser where
  sw : StreamingEscapeWriter
  started : Bool
  closed : Bool

structure ItemIdentityWriter where
  openContent : Bool
  partCount : ℕ
  currText : Option ItemTextPartCloser
  ended : Bool

/-- The writer; `hashed` is what the hash has been given. -/
structure CallIdentityWriter where
  hashed : GoStr
  cfg : CallIdentityConfig
  prefixDone : Bool
  messagesStarted : Bool
  messagesClosed : Bool
  msgCount : ℕ
  itemsStarted : Bool
  itemsClosed : Bool
  itemCount : ℕ
  currMsg : Option MessageIdentityWriter
  currItem : Option ItemIdentityWriter
  closed : Bool

def newCallIdentityWriter (cfg : CallIdentityConfig) : CallIdentityWriter :=
  ⟨[], cfg, false, false, false, 0, false, false, 0, none, none, false⟩

def chunkSize : ℕ := 32 * 1024

def textHeader : GoStr := lit "\x7b\"Kind\":\"text\",\"Text\":\""

def textSuffix : GoStr :=
  lit "\",\"ImageRef\":\"\",\"ImageMIME\":\"\",\"FileRef\":\"\",\"FileMIME\":\"\",\"FileName\":\"\"" ++
    lit ",\"ToolCallID\":\"\",\"ToolName\":\"\",\"Content\":null,\"Reasoning\":null\x7d"

def isPlainStreamingTextPart (p : Part) : Bool :=
  p.kind = .text && p.imageRef.isEmpty && p.imageMIME.isEmpty && p.fileRef.isEmpty &&
    p.fileMIME.isEmpty &&
    p.fileName.isEmpty && p.toolCallID.isEmpty && p.toolName.isEmpty &&
    (p.content.getD []).isEmpty &&
    p.reasoning.isNone

def isPlainMessageItem (item : Item) : Bool :=
  item.kind = .message && item.reference.isNone && item.toolCall.isNone && item.toolResult.isNone &&
    item.reasoning.isNone && item.compaction.isNone && item.extension.isNone

def isPlainContentPart (cp : ContentPart) : Bool :=
  cp.imageRef.isEmpty && cp.imageMIME.isEmpty && cp.fileRef.isEmpty && cp.fileData.isEmpty &&
    cp.fileMIME.isEmpty &&
    cp.fileName.isEmpty && cp.videoRef.isEmpty && cp.videoMIME.isEmpty && cp.refusal.isEmpty &&
    cp.reasoning.isNone &&
    cp.summary.isEmpty && cp.annotationPart.isNone && cp.assistantRef.isEmpty && cp.extension.isNone

namespace CallIdentityWriter

variable (lib : JsonLibrary) (w : CallIdentityWriter)

def emit (s : GoStr) : CallIdentityWriter := { w with hashed := w.hashed ++ s }

def emitValue (s : GoStr) (value : Pieces) : Option CallIdentityWriter :=
  (lib.marshal value).map fun b => w.emit (s ++ b)

def emitField (name : String) (value : Pieces) : Option CallIdentityWriter :=
  w.emitValue lib (lit ",\"" ++ lit name ++ lit "\":") value

def ensurePrefix : Option CallIdentityWriter :=
  if w.prefixDone then some w
  else do
    let w := { w with prefixDone := true }.emit (lit "\x7b\"ID\":\"\"")
    let w ← w.emitField lib "Session" w.cfg.session.json
    let w ← w.emitField lib "Route" w.cfg.route.json
    w.emitField lib "Instructions" (slice Message.json w.cfg.instructions)

/-- `textPartCloser.Close` of the text that is open in the current message. -/
def closeText : CallIdentityWriter :=
  match w.currMsg with
  | none => w
  | some m =>
    match m.currText with
    | none => w
    | some t =>
      if t.closed then w
      else
        let sw := { t.sw with out := w.hashed }.close
        { w with hashed := sw.out ++ textSuffix, currMsg := some { m with currText := some ⟨sw, true⟩ } }

def endMessage : CallIdentityWriter :=
  match w.currMsg with
  | none => w
  | some m =>
    if m.ended then w
    else { w.closeText.emit (lit "]\x7d") with currMsg := none }

def openMessages : CallIdentityWriter :=
  if w.messagesStarted then w else { w with messagesStarted := true }.emit (lit ",\"Messages\":[")

def startMessages : Option CallIdentityWriter := (w.ensurePrefix lib).map openMessages

def closeMessages : CallIdentityWriter :=
  let w := w.endMessage
  if w.messagesStarted = false then
    { w with messagesStarted := true, messagesClosed := true }.emit (lit ",\"Messages\":null")
  else if w.messagesClosed = false then { w with messagesClosed := true }.emit (lit "]")
  else w

def nextMessage : Option CallIdentityWriter := do
  let w ← w.endMessage.ensurePrefix lib
  let w := w.openMessages
  let w := if 0 < w.msgCount then w.emit (lit ",") else w
  return { w with msgCount := w.msgCount + 1 }

def beginMessage (role : Role) : Option CallIdentityWriter := do
  let w ← w.nextMessage lib
  let w ← w.emitValue lib (lit "\x7b\"Role\":") (str role)
  return { w.emit (lit ",\"Parts\":[") with currMsg := some ⟨0, none, false⟩ }

def nextPart : CallIdentityWriter :=
  let w := w.closeText
  match w.currMsg with
  | none => w
  | some m =>
    let w := if 0 < m.partCount then w.emit (lit ",") else w
    { w with currMsg := some { m with partCount := m.partCount + 1 } }

def addPart (p : Part) : Option CallIdentityWriter := w.nextPart.emitValue lib [] p.json

def beginTextPart : CallIdentityWriter :=
  let w := w.nextPart.emit textHeader
  match w.currMsg with
  | none => w
  | some m => { w with currMsg := some { m with currText := some ⟨.new w.hashed, false⟩ } }

/-- `textPartCloser.WriteString` on the open text. -/
def writeText (chunk : GoStr) : Option CallIdentityWriter := do
  let m ← w.currMsg
  let t ← m.currText
  match { t.sw with out := w.hashed }.writeString chunk with
  | .error _ => none
  | .ok (_, sw) =>
    return { w with hashed := sw.out, currMsg := some { m with currText := some { t with sw := sw } } }

def writeTextChunks : ℕ → CallIdentityWriter → GoStr → Option CallIdentityWriter
  | 0, w, _ => some w
  | fuel + 1, w, s =>
    if s = [] then some w
    else (w.writeText (s.take chunkSize)).bind fun w => writeTextChunks fuel w (s.drop chunkSize)

/-- A part in the loop of `AddMessage`. -/
def addMessagePart (p : Part) : Option CallIdentityWriter :=
  if isPlainStreamingTextPart p then
    (writeTextChunks p.text.length w.beginTextPart p.text).map closeText
  else w.addPart lib p

def addMessage (m : Message) : Option CallIdentityWriter :=
  match m.parts with
  | none => do
    let w ← w.nextMessage lib
    let w ← w.emitValue lib (lit "\x7b\"Role\":") (str m.role)
    return w.emit (lit ",\"Parts\":null\x7d")
  | some parts => do
    let w ← w.beginMessage lib m.role
    let w ← parts.foldlM (fun w p => w.addMessagePart lib p) w
    return w.endMessage

/-- `itemTextPartCloser.Close` of the text that is open in the current item. -/
def closeItemText : CallIdentityWriter :=
  match w.currItem with
  | none => w
  | some it =>
    match it.currText with
    | none => w
    | some t =>
      if t.closed then w
      else if t.started then
        let sw := { t.sw with out := w.hashed }.close
        { w with hashed := sw.out ++ lit "\"\x7d", currItem := some { it with currText := some ⟨sw, true, true⟩ } }
      else
        { w.emit (lit "\x7b\"kind\":\"text\"\x7d") with
          currItem := some { it with currText := some { t with closed := true } } }

def dropItemText : CallIdentityWriter :=
  let w := w.closeItemText
  { w with currItem := w.currItem.map fun it => { it with currText := none } }

def endItem : CallIdentityWriter :=
  match w.currItem with
  | none => w
  | some it =>
    if it.ended then w
    else
      let w := w.dropItemText
      { (if it.openContent then w.emit (lit "]\x7d") else w) with currItem := none }

def openItems : CallIdentityWriter :=
  if w.itemsStarted then w else { w with itemsStarted := true }.emit (lit ",\"Items\":[")

def startItems : Option CallIdentityWriter :=
  (w.ensurePrefix lib).map fun w => w.closeMessages.openItems

def closeItems : CallIdentityWriter :=
  let w := w.endItem
  if w.itemsStarted = false then
    { w with itemsStarted := true, itemsClosed := true }.emit (lit ",\"Items\":null")
  else if w.itemsClosed = false then { w with itemsClosed := true }.emit (lit "]")
  else w

def nextItem : Option CallIdentityWriter := do
  let w ← w.endItem.ensurePrefix lib
  let w := w.closeMessages.openItems
  let w := if 0 < w.itemCount then w.emit (lit ",") else w
  return { w with itemCount := w.itemCount + 1 }

/-- A message item up to its content. The template has no content, and its last brace is cut off. -/
def beginMessageItem (item : Item) : Option CallIdentityWriter := do
  let w ← w.nextItem lib
  let template : Item :=
    { kind := .message, id := item.id, status := item.status, role := item.role, phase := item.phase }
  let tplBytes ← lib.marshal template.json
  if tplBytes.getLast? = some 0x7D then
    return { w.emit (tplBytes.dropLast ++ lit ",\"content\":[") with currItem := some ⟨true, 0, none, false⟩ }
  else none

def nextContentPart : CallIdentityWriter :=
  let w := w.dropItemText
  match w.currItem with
  | none => w
  | some it =>
    let w := if 0 < it.partCount then w.emit (lit ",") else w
    { w with currItem := some { it with partCount := it.partCount + 1 } }

def addContentPart (cp : ContentPart) : Option CallIdentityWriter :=
  w.nextContentPart.emitValue lib [] cp.json

def beginTextContentPart : CallIdentityWriter :=
  let w := w.nextContentPart
  match w.currItem with
  | none => w
  | some it => { w with currItem := some { it with currText := some ⟨.new w.hashed, false, false⟩ } }

/-- `itemTextPartCloser.WriteString` on the open text. -/
def writeItemText (chunk : GoStr) : Option CallIdentityWriter := do
  let it ← w.currItem
  let t ← it.currText
  if t.closed then none
  else if chunk = [] then return w
  else
    let hashed :=
      if t.started then w.hashed else w.hashed ++ lit "\x7b\"kind\":\"text\",\"text\":\""
    match { t.sw with out := hashed }.writeString chunk with
    | .error _ => none
    | .ok (_, sw) =>
      return { w with hashed := sw.out, currItem := some { it with currText := some ⟨sw, true, t.closed⟩ } }

def writeItemTextChunks : ℕ → CallIdentityWriter → GoStr → Option CallIdentityWriter
  | 0, w, _ => some w
  | fuel + 1, w, s =>
    if s = [] then some w
    else (w.writeItemText (s.take chunkSize)).bind
      fun w => writeItemTextChunks fuel w (s.drop chunkSize)

/-- A content part in the loop of `AddItem`. -/
def addItemPart (cp : ContentPart) : Option CallIdentityWriter :=
  if cp.kind = .text ∧ isPlainContentPart cp = true then
    (writeItemTextChunks cp.text.length w.beginTextContentPart cp.text).map closeItemText
  else w.addContentPart lib cp

def addItemWholeMarshal (item : Item) : Option CallIdentityWriter := do
  let w ← w.nextItem lib
  w.emitValue lib [] item.json

def addItem (item : Item) : Option CallIdentityWriter :=
  if isPlainMessageItem item then do
    let w ← w.beginMessageItem lib item
    let w ← item.content.foldlM (fun w cp => w.addItemPart lib cp) w
    return w.endItem
  else w.addItemWholeMarshal lib item

def finishItems : Option CallIdentityWriter :=
  if w.closed then none
  else (ensurePrefix lib { w with closed := true }).map fun w => w.closeMessages.closeItems

def writeTail : Option CallIdentityWriter := do
  let w ← w.emitField lib "PreviousResponseID" (str w.cfg.previousResponseID)
  let w ← w.emitField lib "PromptCacheKey" (str w.cfg.promptCacheKey)
  let w ← w.emitField lib "SemanticExtensions" (slice SemanticExtension.json w.cfg.semanticExtensions)
  let w ← w.emitField lib "Tools" (slice ToolDef.json w.cfg.tools)
  let w ← w.emitField lib "ToolChoice" w.cfg.toolChoice.json
  let w ← w.emitField lib "Options" w.cfg.options.json
  let w ← w.emitField lib "Extensions" (mapping raw w.cfg.extensions)
  return w.emit (lit "\x7d")

def digest : Option GoStr := ((w.finishItems lib).bind (writeTail lib)).map hashed

def configure (c : Call) : CallIdentityConfig where
  session := c.session
  route := c.route
  instructions := c.instructions
  previousResponseID := c.previousResponseID
  promptCacheKey := c.promptCacheKey
  semanticExtensions := c.semanticExtensions
  tools := c.tools
  toolChoice := c.toolChoice
  options := c.options
  extensions := c.extensions

def writeMessages : Option (List Message) → Option CallIdentityWriter
  | none => some w
  | some messages => (w.startMessages lib).bind
    fun w => messages.foldlM (fun w m => w.addMessage lib m) w

def writeItems : Option (List Item) → Option CallIdentityWriter
  | none => some w
  | some items => (w.startItems lib).bind fun w => items.foldlM (fun w item => w.addItem lib item) w

/-- `WriteCall`: the bytes that the returned digest is the hash of, and nothing for an error. -/
def writeCall (c : Call) : Option GoStr := do
  let w ← { w with cfg := configure c }.writeMessages lib c.messages
  let w ← w.writeItems lib c.items
  w.digest lib

end CallIdentityWriter

/-- `CanonicalCallIdentity`: the bytes that it hashes, and nothing where it returns the zero digest.
-/
def canonicalCallIdentity (lib : JsonLibrary) (c : Call) : Option GoStr :=
  lib.marshal { c with id := [] }.json

end InteractiveProxy.LargeBody
