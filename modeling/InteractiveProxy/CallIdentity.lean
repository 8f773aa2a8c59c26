import InteractiveProxy.CallIdentityWriter
import InteractiveProxy.CallValidation

/-! The bytes that the identity writer hashes for a call are the JSON of the call, up to the raw
content of plain text parts, which the writer takes for nil when it is empty. -/
namespace InteractiveProxy.LargeBody

open GoText GuardedRun JsonPieces Lipapi List Option CallIdentityWriter Item StreamingEscapeWriter
open JsonEncoding (escape quote)

def settlePart (p : Part) : Part :=
  if isPlainStreamingTextPart p then { p with content := none } else p

def settleMessage (m : Message) : Message := { m with parts := m.parts.map (map settlePart) }

def settleCall (c : Call) : Call := { c with messages := c.messages.map (map settleMessage) }

namespace CallIdentityWriter

variable {lib : JsonLibrary} {f w : CallIdentityWriter} {n : ℕ} {P : CallIdentityWriter → Prop}
  {start s whole : GoStr}

lemma writes_emitValue {value : Pieces} (h : ∀ b, P (w.emit b)) :
    Writes lib hashed w.hashed (.bytes s :: value) P (w.emitValue lib s value) := by
  rw [emitValue]
  cases hvalue : lib.marshal value with
  | none => exact .failed (by rw [marshal_bytes, hvalue]; rfl)
  | some b => exact .done (by rw [marshal_bytes, hvalue]; rfl) rfl (h _)

/-- A value behind what an earlier step writes. -/
lemma Writes.value {ps : Pieces} {result : Option CallIdentityWriter}
    (h : Writes lib hashed start ps P result)
    (hemit : ∀ v, P v → ∀ b, P (v.emit b)) (value : Pieces) :
    Writes lib hashed start (ps ++ value) P (result.bind fun w => w.emitValue lib [] value) :=
  (h.bind fun v hv => writes_emitValue (hemit v hv)).congr (by simp)

/-- The loops that write a text in chunks, for what the writer has been given of it. -/
lemma chunked {loop : ℕ → CallIdentityWriter → GoStr → Option CallIdentityWriter}
    {write : CallIdentityWriter → GoStr → Option CallIdentityWriter}
    {P : GoStr → CallIdentityWriter → Prop} (hzero : ∀ w s, loop 0 w s = some w)
    (hsucc : ∀ fuel w s, loop (fuel + 1) w s =
      if s = [] then some w
      else (write w (s.take chunkSize)).bind fun w => loop fuel w (s.drop chunkSize))
    (hwrite : ∀ whole chunk w, P whole w → chunk ≠ [] → (chunk.length : ℤ) + 3 ≤ maxInt64 →
      ∃ v, write w chunk = some v ∧ P (whole ++ chunk) v)
    {fuel : ℕ} (h : P whole w) (hfuel : s.length ≤ fuel) :
    ∃ v, loop fuel w s = some v ∧ P (whole ++ s) v := by
  induction fuel generalizing w whole s with
  | zero =>
    rw [length_eq_zero_iff.mp (Nat.le_zero.mp hfuel), append_nil]
    exact ⟨w, hzero w [], h⟩
  | succ fuel ih =>
    rw [hsucc]
    split_ifs with hs
    · rw [hs, append_nil]
      exact ⟨w, rfl, h⟩
    have hbound : ((s.take chunkSize).length : ℤ) + 3 ≤ maxInt64 := by
      rw [length_take, chunkSize, maxInt64]
      omega
    obtain ⟨v, hv, htext⟩ := hwrite whole (s.take chunkSize) w h (by simp [hs, chunkSize]) hbound
    have hdrop : (s.drop chunkSize).length ≤ fuel := by
      rw [length_drop, chunkSize]
      omega
    obtain ⟨u, hu, hrest⟩ := ih htext hdrop
    rw [append_assoc, take_append_drop] at hrest
    exact ⟨u, by rw [hv]; exact hu, hrest⟩

/-- Inside a message with `n` parts, none of which is open. -/
def InMessage (f : CallIdentityWriter) (n : ℕ) (w : CallIdentityWriter) : Prop :=
  ∃ s text, w = { f with hashed := s, currMsg := some ⟨n, text, false⟩ } ∧ ∀ t ∈ text, t.closed

/-- Inside a text whose escape stands behind `start`. -/
def InText (f : CallIdentityWriter) (n : ℕ) (start whole : GoStr) (w : CallIdentityWriter) : Prop :=
  ∃ sw : StreamingEscapeWriter, w =
    { f with hashed := sw.out, currMsg := some ⟨n, some ⟨sw, false⟩, false⟩ } ∧
    sw.Escaping start whole

section

variable (h : InMessage f n w)

include h

lemma InMessage.emit (b : GoStr) : InMessage f n (w.emit b) := by
  obtain ⟨s, text, rfl, htext⟩ := h
  exact ⟨s ++ b, text, rfl, htext⟩

lemma InMessage.closeText : w.closeText = w := by
  obtain ⟨s, text, rfl, htext⟩ := h
  cases text with
  | none => rfl
  | some t => simp [closeText, htext t rfl]

lemma InMessage.nextPart :
    w.nextPart.hashed = w.hashed ++ separator n ∧ InMessage f (n + 1) w.nextPart := by
  rw [CallIdentityWriter.nextPart, h.closeText]
  obtain ⟨s, text, rfl, htext⟩ := h
  by_cases hn : 0 < n
  · simp only [if_pos hn, separator]
    exact ⟨rfl, _, text, rfl, htext⟩
  · simp only [if_neg hn, separator, append_nil]
    exact ⟨trivial, _, text, rfl, htext⟩

lemma InMessage.beginTextPart : InText f (n + 1) (w.hashed ++ separator n ++ textHeader)
    [] w.beginTextPart := by
  obtain ⟨hout, s, text, hw, -⟩ := h.nextPart
  rw [CallIdentityWriter.beginTextPart]
  have hs : s = w.hashed ++ separator n := by rw [← hout, hw]
  rw [hw, ← hs]
  exact ⟨_, rfl, new_escaping _⟩

end

lemma InText.writeTextChunks (h : InText f n start [] w) :
    ∃ v, writeTextChunks s.length w s = some v ∧ InText f n start s v := by
  refine chunked (fun _ _ => rfl) (fun _ _ _ => rfl) ?_ h le_rfl
  rintro whole chunk w ⟨sw, rfl, hsw⟩ - hbound
  obtain ⟨count, t, hwrite, ht⟩ := hsw.writeString hbound
  refine ⟨_, ?_, t, rfl, ht⟩
  simp only [writeText, bind_eq_bind, bind_some]
  rw [hwrite]
  rfl

lemma InText.closeText (h : InText f n start whole w) :
    w.closeText.hashed = start ++ escape whole ++ textSuffix ∧ InMessage f n w.closeText := by
  obtain ⟨sw, rfl, hsw⟩ := h
  exact ⟨congrArg (· ++ textSuffix) hsw.close, _, some ⟨sw.close, true⟩, rfl, by rintro t ⟨⟩; rfl⟩

def plainMembers : List Pieces :=
  [member (lit "ImageRef") (str []), member (lit "ImageMIME") (str []),
    member (lit "FileRef") (str []), member (lit "FileMIME") (str []),
    member (lit "FileName") (str []), member (lit "ToolCallID") (str []),
    member (lit "ToolName") (str []), member (lit "Content") (raw none),
    member (lit "Reasoning") null]

lemma marshal_plainMembers :
    lib.marshal (.bytes (lit ",") :: (commas plainMembers ++ [.bytes (lit "\x7d")])) =
    some textSuffix.tail := by
  exact congrArg some (by decide +kernel)

lemma marshal_settlePart {p : Part} (h : isPlainStreamingTextPart p) :
    lib.marshal (settlePart p).json = some (textHeader ++ (escape p.text ++ textSuffix)) := by
  have hjson :
      (settlePart p).json = .bytes (lit "\x7b") :: .bytes (quote (lit "Kind") ++ lit ":") ::
      .bytes (quote (lit "text")) :: .bytes (lit ",") :: .bytes (quote (lit "Text") ++ lit ":") ::
      .bytes (quote p.text) :: .bytes (lit ",") :: (commas plainMembers ++ [.bytes (lit "\x7d")]) := by
    rw [settlePart, if_pos h]
    simp only [isPlainStreamingTextPart, Bool.and_eq_true, decide_eq_true_eq, List.isEmpty_iff, isNone_iff_eq_none] at h
    obtain ⟨⟨⟨⟨⟨⟨⟨⟨⟨hkind, h1⟩, h2⟩, h3⟩, h4⟩, h5⟩, h6⟩, h7⟩, -⟩, h8⟩ := h
    rw [hkind, h1, h2, h3, h4, h5, h6, h7, h8]
    rfl
  have hhead : textHeader =
      lit "\x7b" ++ (quote (lit "Kind") ++ lit ":" ++ (quote (lit "text") ++
        (lit "," ++ (quote (lit "Text") ++ lit ":" ++ [0x22])))) := by decide +kernel
  have hsuffix : textSuffix = [0x22] ++ textSuffix.tail := rfl
  rw [hjson]
  iterate 6 rw [marshal_bytes]
  rw [marshal_plainMembers, hsuffix, hhead]
  simp [quote]

lemma writes_addMessagePart (h : InMessage f n w) (p : Part) :
    Writes lib hashed w.hashed (.bytes (separator n) :: (settlePart p).json) (InMessage f (n + 1))
      (w.addMessagePart lib p) := by
  rw [addMessagePart]
  split_ifs with hp
  · obtain ⟨v, hv, htext⟩ := h.beginTextPart.writeTextChunks
    obtain ⟨hout, hin⟩ := htext.closeText
    rw [hv]
    refine (Writes.of_bytes (b := separator n ++ (textHeader ++ (escape p.text ++ textSuffix))) ?_ hin).congr ?_
    · rw [hout]
      simp only [append_assoc]
    · rw [marshal_bytes, marshal_bytes, marshal_settlePart hp]
      simp
  · rw [settlePart, if_neg hp]
    obtain ⟨hout, hin⟩ := h.nextPart
    exact Writes.value (.of_bytes hout hin) (fun _ => InMessage.emit) p.json

variable {cfg : CallIdentityConfig}

def AtMessages (cfg : CallIdentityConfig) (n : ℕ) (w : CallIdentityWriter) : Prop :=
  ∃ s, w = ⟨s, cfg, true, true, false, n, false, false, 0, none, none, false⟩

lemma AtMessages.emit (h : AtMessages cfg n w) (b : GoStr) : AtMessages cfg n (w.emit b) := by
  obtain ⟨s, rfl⟩ := h
  exact ⟨s ++ b, rfl⟩

lemma writes_nextMessage (h : AtMessages cfg n w) :
    Writes lib hashed w.hashed [.bytes (separator n)] (AtMessages cfg (n + 1))
    (w.nextMessage lib) := by
  obtain ⟨s, rfl⟩ := h
  cases n with
  | zero => exact .of_bytes (append_nil s).symm ⟨_, rfl⟩
  | succ k => exact .of_bytes rfl ⟨_, rfl⟩

lemma InMessage.endMessage (h : InMessage f n w) : w.endMessage.hashed = w.hashed ++ lit "]\x7d" ∧
      w.endMessage = { f with hashed := w.endMessage.hashed, currMsg := none } := by
  have hclose := h.closeText
  obtain ⟨s, text, rfl, htext⟩ := h
  simp only [endMessage, hclose]
  exact ⟨rfl, rfl⟩

lemma writes_beginMessage (h : AtMessages cfg n w) (role : Role) :
    Writes lib hashed w.hashed
      ([.bytes (separator n)] ++ ((.bytes (lit "\x7b\"Role\":") :: str role) ++ [.bytes (lit ",\"Parts\":[")]))
      (InMessage ⟨[], cfg, true, true, false, n + 1, false, false, 0, none, none, false⟩ 0)
      (w.beginMessage lib role) := by
  refine (writes_nextMessage h).bind fun v hv => (writes_emitValue hv.emit).bind fun u hu => ?_
  obtain ⟨s, rfl⟩ := hu
  exact .of_bytes rfl ⟨_, none, rfl, nofun⟩

lemma writes_addMessage (h : AtMessages cfg n w) (m : Message) :
    Writes lib hashed w.hashed (.bytes (separator n) :: (settleMessage m).json)
      (AtMessages cfg (n + 1)) (w.addMessage lib m) := by
  have hrole :
    lit "\x7b\"Role\":" = lit "\x7b" ++ (quote (lit "Role") ++ lit ":") := by decide +kernel
  cases hparts : m.parts with
  | none =>
    have hnull : lit ",\"Parts\":null\x7d" =
        lit "," ++ (quote (lit "Parts") ++ (lit ":" ++ (lit "null" ++ lit "\x7d"))) := by decide +kernel
    rw [addMessage, hparts]
    refine ((writes_nextMessage h).bind fun v hv => (writes_emitValue hv.emit).bind fun u hu =>
      .of_bytes rfl (hu.emit _)).congr ?_
    simp [Message.json, settleMessage, hparts, hrole, hnull, object, member, null, str]
  | some parts =>
    have hparts' : lit ",\"Parts\":[" =
      lit "," ++ (quote (lit "Parts") ++ (lit ":" ++ lit "[")) := by decide +kernel
    have hend : lit "]\x7d" = lit "]" ++ lit "\x7d" := by decide +kernel
    rw [addMessage, hparts]
    refine ((writes_beginMessage h m.role).bind fun v hv =>
      (Writes.foldlM (fun n s p _ hs => writes_addMessagePart hs p) hv).bind fun u hu =>
      .of_bytes hu.endMessage.1 ⟨_, hu.endMessage.2⟩).congr ?_
    simp [Message.json, settleMessage, hparts, hrole, hparts', hend, object, member, str, array, Function.comp_def]

def itemTextHeader : GoStr := lit "\x7b\"kind\":\"text\",\"text\":\""

/-- Inside a message item with `n` content parts, none of which is open. -/
def InItem (f : CallIdentityWriter) (n : ℕ) (w : CallIdentityWriter) : Prop :=
  ∃ s text, w = { f with hashed := s, currItem := some ⟨true, n, text, false⟩ } ∧
    ∀ t ∈ text, t.closed

/-- Inside a text behind `start`. Nothing of it is written before its first bytes. -/
def InItemText (f : CallIdentityWriter) (n : ℕ) (start whole : GoStr) (w : CallIdentityWriter) :
    Prop :=
  (whole = [] ∧ ∃ out, w =
    { f with hashed := start, currItem := some ⟨true, n, some ⟨.new out, false, false⟩, false⟩ }) ∨
  (whole ≠ [] ∧ ∃ sw : StreamingEscapeWriter, w =
    { f with hashed := sw.out, currItem := some ⟨true, n, some ⟨sw, true, false⟩, false⟩ } ∧
    sw.Escaping (start ++ itemTextHeader) whole)

section

variable (h : InItem f n w)

include h

lemma InItem.emit (b : GoStr) : InItem f n (w.emit b) := by
  obtain ⟨s, text, rfl, htext⟩ := h
  exact ⟨s ++ b, text, rfl, htext⟩

lemma InItem.dropItemText :
    w.dropItemText = { f with hashed := w.hashed, currItem := some ⟨true, n, none, false⟩ } := by
  obtain ⟨s, text, rfl, htext⟩ := h
  cases text with
  | none => rfl
  | some t => simp [dropItemText, closeItemText, htext t rfl]

lemma InItem.nextContentPart : w.nextContentPart =
      { f with hashed := w.hashed ++ separator n, currItem := some ⟨true, n + 1, none, false⟩ } := by
  rw [CallIdentityWriter.nextContentPart, h.dropItemText]
  by_cases hn : 0 < n
  · simp only [if_pos hn, separator]
    rfl
  · simp [if_neg hn, separator]

lemma InItem.beginTextContentPart : InItemText f (n + 1) (w.hashed ++ separator n)
    [] w.beginTextContentPart := by
  rw [CallIdentityWriter.beginTextContentPart, h.nextContentPart]
  exact .inl ⟨rfl, _, rfl⟩

end

lemma InItemText.writeItemTextChunks (h : InItemText f n start [] w) :
    ∃ v, writeItemTextChunks s.length w s = some v ∧ InItemText f n start s v := by
  refine chunked (fun _ _ => rfl) (fun _ _ _ => rfl) ?_ h le_rfl
  intro whole chunk w h hne hbound
  have hwhole : whole ++ chunk ≠ [] := fun h => hne (append_eq_nil_iff.mp h).2
  rcases h with ⟨rfl, out, rfl⟩ | ⟨-, sw, rfl, hsw⟩
  · have hnew := new_escaping (start ++ itemTextHeader)
    obtain ⟨count, t, hwrite, ht⟩ := hnew.writeString hbound
    refine ⟨_, ?_, .inr ⟨hwhole, t, rfl, ht⟩⟩
    rw [new, itemTextHeader] at hwrite
    simp [writeItemText, hne, new, hwrite]
  · obtain ⟨count, t, hwrite, ht⟩ := hsw.writeString hbound
    refine ⟨_, ?_, .inr ⟨hwhole, t, rfl, ht⟩⟩
    simp [writeItemText, hne, hwrite]

def itemText (s : GoStr) : GoStr :=
  if s = [] then lit "\x7b\"kind\":\"text\"\x7d" else itemTextHeader ++ (escape s ++ lit "\"\x7d")

lemma InItemText.closeItemText (h : InItemText f n start whole w) :
    w.closeItemText.hashed = start ++ itemText whole ∧ InItem f n w.closeItemText := by
  rcases h with ⟨rfl, out, rfl⟩ | ⟨hne, sw, rfl, hsw⟩
  · exact ⟨rfl, _, some ⟨.new out, false, true⟩, rfl, by rintro t ⟨⟩; rfl⟩
  · refine ⟨?_, _, some ⟨sw.close, true, true⟩, rfl, by rintro t ⟨⟩; rfl⟩
    rw [itemText, if_neg hne, ← append_assoc, ← append_assoc, ← hsw.close]
    rfl

lemma marshal_plainContentPart {cp : ContentPart} (hkind : cp.kind = .text)
    (h : isPlainContentPart cp) : lib.marshal cp.json = some (itemText cp.text) := by
  simp only [isPlainContentPart, Bool.and_eq_true, List.isEmpty_iff, isNone_iff_eq_none] at h
  obtain ⟨⟨⟨⟨⟨⟨⟨⟨⟨⟨⟨⟨⟨h1, h2⟩, h3⟩, h4⟩, h5⟩, h6⟩, h7⟩, h8⟩, h9⟩, h10⟩, h11⟩, h12⟩, h13⟩, h14⟩ := h
  have hjson :
      cp.json = object (member (lit "kind") (str (lit "text")) :: optionalText "text" cp.text) := by
    rw [ContentPart.json, hkind, h1, h2, h3, h4, h5, h6, h7, h8, h9, h10, h11, h12, h13, h14]
    simp [optionalText, ContentPartKind.name]
  have hkindBytes : lit "\x7b\"kind\":\"text\"" =
      lit "\x7b" ++ (quote (lit "kind") ++ (lit ":" ++ quote (lit "text"))) := by decide +kernel
  rw [hjson, itemText, optionalText]
  split_ifs
  · have hempty : lit "\x7b\"kind\":\"text\"\x7d" =
      lit "\x7b\"kind\":\"text\"" ++ lit "\x7d" := by decide +kernel
    simp [object, member, str, hempty, hkindBytes]
  · have hhead : itemTextHeader =
        lit "\x7b\"kind\":\"text\"" ++ (lit "," ++ (quote (lit "text") ++ (lit ":" ++ [0x22]))) := by decide +kernel
    have hend : lit "\"\x7d" = [0x22] ++ lit "\x7d" := by decide +kernel
    have hquote : quote cp.text = 0x22 :: (escape cp.text ++ [0x22]) := rfl
    simp [object, member, str, hhead, hend, hkindBytes, hquote]

lemma writes_addItemPart (h : InItem f n w) (cp : ContentPart) :
    Writes lib hashed w.hashed (.bytes (separator n) :: cp.json) (InItem f (n + 1))
    (w.addItemPart lib cp) := by
  by_cases hcp : cp.kind = .text ∧ isPlainContentPart cp
  · rw [addItemPart, if_pos hcp]
    obtain ⟨v, hv, htext⟩ := h.beginTextContentPart.writeItemTextChunks
    obtain ⟨hout, hin⟩ := htext.closeItemText
    rw [hv]
    refine (Writes.of_bytes (b := separator n ++ itemText cp.text) (by rw [hout, append_assoc]) hin).congr ?_
    simp [marshal_plainContentPart hcp.1 hcp.2]
  · rw [addItemPart, if_neg hcp]
    have hstep : Writes lib hashed w.hashed [.bytes (separator n)] (InItem f (n + 1))
        (some w.nextContentPart) := by
      rw [h.nextContentPart]
      exact .of_bytes rfl ⟨_, none, rfl, nofun⟩
    have hvalue := Writes.value hstep (fun _ => InItem.emit) cp.json
    rwa [bind_some] at hvalue

variable {k : ℕ}

/-- Between the items of a call with `k` messages. -/
def AtItems (cfg : CallIdentityConfig) (k n : ℕ) (w : CallIdentityWriter) : Prop :=
  ∃ s, w = ⟨s, cfg, true, true, true, k, true, false, n, none, none, false⟩

lemma AtItems.emit (h : AtItems cfg k n w) (b : GoStr) : AtItems cfg k n (w.emit b) := by
  obtain ⟨s, rfl⟩ := h
  exact ⟨s ++ b, rfl⟩

lemma writes_nextItem (h : AtItems cfg k n w) :
    Writes lib hashed w.hashed [.bytes (separator n)] (AtItems cfg k (n + 1)) (w.nextItem lib) := by
  obtain ⟨s, rfl⟩ := h
  cases n with
  | zero => exact .of_bytes (append_nil s).symm ⟨_, rfl⟩
  | succ n => exact .of_bytes rfl ⟨_, rfl⟩

lemma InItem.endItem (h : InItem f n w) :
    w.endItem = { f with hashed := w.hashed ++ lit "]\x7d", currItem := none } := by
  have hdrop := h.dropItemText
  obtain ⟨s, text, rfl, htext⟩ := h
  simp only [endItem, hdrop]
  rfl

variable {item : Item} {closed : Bool}

lemma marshal_template (hkind : item.kind = .message) : lib.marshal (json
      { kind := .message, id := item.id, status := item.status, role := item.role, phase := item.phase }) =
      (lib.marshal (commas item.header)).map fun b => lit "\x7b" ++ b ++ [0x7D] := by
  have hjson : json
      { kind := .message, id := item.id, status := item.status, role := item.role, phase := item.phase } =
      .bytes (lit "\x7b") :: (commas item.header ++ [.bytes (lit "\x7d")]) := by
    simp [json, header, hkind, object, optionalList]
  have hbrace : lit "\x7d" = [0x7D] := rfl
  rw [hjson, marshal_bytes, marshal_append]
  cases lib.marshal (commas item.header) <;> simp [hbrace]

lemma writes_beginMessageItem (h : AtItems cfg k n w) (hkind : item.kind = .message) :
    Writes lib hashed w.hashed ([.bytes (separator n)] ++
      ((.bytes (lit "\x7b") :: commas item.header) ++ [.bytes (lit ",\"content\":[")]))
      (InItem ⟨[], cfg, true, true, true, k, true, false, n + 1, none, none, false⟩ 0)
      (w.beginMessageItem lib item) := by
  refine (writes_nextItem h).bind fun v hv => ?_
  obtain ⟨s, rfl⟩ := hv
  dsimp only
  rw [marshal_template hkind]
  cases hheader : lib.marshal (commas item.header) with
  | none => exact .failed (by rw [marshal_append, marshal_bytes, hheader]; rfl)
  | some b =>
    simp only [map_some, bind_eq_bind, bind_some, getLast?_concat, if_true, dropLast_concat]
    refine .done (b := lit "\x7b" ++ b ++ lit ",\"content\":[") ?_ ?_ ⟨_, none, rfl, nofun⟩
    · rw [marshal_append, marshal_bytes, hheader]
      simp
    · simp [emit]

lemma item_json_eq (h : isPlainMessageItem item) (hcontent : item.content ≠ []) :
    item.json = object
    (item.header ++ [member (lit "content") (array (item.content.map ContentPart.json))]) := by
  simp only [isPlainMessageItem, Bool.and_eq_true, isNone_iff_eq_none] at h
  obtain ⟨⟨⟨⟨⟨⟨-, h1⟩, h2⟩, h3⟩, h4⟩, h5⟩, h6⟩ := h
  simp [json, h1, h2, h3, h4, h5, h6, optionalList, hcontent]

lemma writes_addItem (h : AtItems cfg k n w) (hcontent : item.kind = .message → item.content ≠ []) :
    Writes lib hashed w.hashed (.bytes (separator n) :: item.json) (AtItems cfg k (n + 1))
    (w.addItem lib item) := by
  by_cases hplain : isPlainMessageItem item
  · have hkind : item.kind = .message := by
      simp only [isPlainMessageItem, Bool.and_eq_true, decide_eq_true_eq] at hplain
      exact hplain.1.1.1.1.1.1
    have hlist :
        lit ",\"content\":[" = lit "," ++ (quote (lit "content") ++ (lit ":" ++ lit "[")) := by
      decide +kernel
    have hend : lit "]\x7d" = lit "]" ++ lit "\x7d" := by decide +kernel
    have hheader : item.header ≠ [] := by simp [header]
    rw [addItem, if_pos hplain, item_json_eq hplain (hcontent hkind)]
    refine ((writes_beginMessageItem h hkind).bind fun v hv =>
      (Writes.foldlM (fun n s cp _ hs => writes_addItemPart hs cp) hv).bind fun u hu =>
      .of_bytes (by rw [hu.endItem]) ⟨_, hu.endItem⟩).congr ?_
    simp [object, member, array, commas_concat hheader, hlist, hend]
  · rw [addItem, if_neg hplain]
    exact Writes.value (writes_nextItem h) (fun _ => AtItems.emit) item.json

lemma writes_emitField (name : String) (value : CallIdentityConfig → Pieces)
    (hname : escape (lit name) = lit name) (hcfg : w.cfg = cfg) (h : ∀ b, P (w.emit b)) :
    Writes lib hashed w.hashed (.bytes (lit ",") :: member (lit name) (value cfg)) P
      (w.emitField lib name (value w.cfg)) := by
  have hquote : lit ",\"" ++ lit name ++ lit "\":" = lit "," ++ (quote (lit name) ++ lit ":") := by
    have hopen : lit ",\"" = lit "," ++ [0x22] := by decide +kernel
    have hclose : lit "\":" = [0x22] ++ lit ":" := by decide +kernel
    rw [quote, hname, hopen, hclose]
    simp
  rw [emitField, hquote, hcfg]
  exact (writes_emitValue h).congr (by simp [member, Function.comp_def])

def headPieces (cfg : CallIdentityConfig) : Pieces :=
  .bytes (lit "\x7b\"ID\":\"\"") :: (.bytes (lit ",") :: member (lit "Session") cfg.session.json ++
    (.bytes (lit ",") :: member (lit "Route") cfg.route.json ++
      .bytes (lit ",") :: member (lit "Instructions") (slice Message.json cfg.instructions)))

def AtStart (cfg : CallIdentityConfig) (closed : Bool) (w : CallIdentityWriter) : Prop :=
  ∃ s, w = ⟨s, cfg, true, false, false, 0, false, false, 0, none, none, closed⟩

lemma AtStart.emit (h : AtStart cfg closed w) (b : GoStr) : AtStart cfg closed (w.emit b) := by
  obtain ⟨s, rfl⟩ := h
  exact ⟨s ++ b, rfl⟩

lemma AtStart.cfg_eq (h : AtStart cfg closed w) : w.cfg = cfg := by
  obtain ⟨s, rfl⟩ := h
  rfl

lemma writes_ensurePrefix (closed : Bool) : Writes lib hashed [] (headPieces cfg)
    (AtStart cfg closed)
      (ensurePrefix lib ⟨[], cfg, false, false, false, 0, false, false, 0, none, none, closed⟩) := by
  have hid : Writes lib hashed [] [.bytes (lit "\x7b\"ID\":\"\"")] (AtStart cfg closed)
      (some ⟨lit "\x7b\"ID\":\"\"", cfg, true, false, false, 0, false, false, 0, none, none, closed⟩) :=
    .of_bytes rfl ⟨_, rfl⟩
  exact hid.bind fun v hv =>
    (writes_emitField "Session" (fun c => c.session.json) (by decide +kernel) hv.cfg_eq hv.emit).bind fun u hu =>
    (writes_emitField "Route" (fun c => c.route.json) (by decide +kernel) hu.cfg_eq hu.emit).bind
      fun t ht => writes_emitField "Instructions" (fun c => slice Message.json c.instructions)
      (by decide +kernel) ht.cfg_eq ht.emit

def MessagesDone (cfg : CallIdentityConfig) (closed : Bool) (w : CallIdentityWriter) : Prop :=
  ∃ s k, w = ⟨s, cfg, true, true, true, k, false, false, 0, none, none, closed⟩

def finishMessages (lib : JsonLibrary) (closing : Bool) (w : CallIdentityWriter) :
    Option CallIdentityWriter :=
  if closing && w.closed then none
  else (ensurePrefix lib (if closing then { w with closed := true } else w)).map closeMessages

lemma writes_messages (closing : Bool) (messages : Option (List Message)) :
    Writes lib hashed [] (headPieces cfg ++ .bytes (lit ",") :: member (lit "Messages")
      (slice Message.json (messages.map (map settleMessage)))) (MessagesDone cfg closing)
      (((newCallIdentityWriter cfg).writeMessages lib messages).bind (finishMessages lib closing)) := by
  cases messages with
  | none =>
    have hnull : lit ",\"Messages\":null" =
        lit "," ++ (quote (lit "Messages") ++ (lit ":" ++ lit "null")) := by
      decide +kernel
    have hsame :
        ((newCallIdentityWriter cfg).writeMessages lib none).bind (finishMessages lib closing) =
        (ensurePrefix lib ⟨[], cfg, false, false, false, 0, false, false, 0, none, none, closing⟩).map
          closeMessages := by
      cases closing <;> rfl
    rw [hsame]
    refine ((writes_ensurePrefix closing).map (b := lit ",\"Messages\":null") fun v hv => ?_).congr ?_
    · obtain ⟨s, rfl⟩ := hv
      exact ⟨rfl, _, 0, rfl⟩
    · simp [hnull, member, null]
  | some messages =>
    have hopen :
        lit ",\"Messages\":[" = lit "," ++ (quote (lit "Messages") ++ (lit ":" ++ lit "[")) := by
      decide +kernel
    have hstart : Writes lib hashed [] (headPieces cfg ++ [.bytes (lit ",\"Messages\":[")])
        (AtMessages cfg 0) ((newCallIdentityWriter cfg).startMessages lib) :=
      (writes_ensurePrefix false).map fun v hv => by
        obtain ⟨s, rfl⟩ := hv
        exact ⟨rfl, _, rfl⟩
    have hclose : ∀ v, AtMessages cfg (0 + messages.length) v →
        Writes lib hashed v.hashed [.bytes (lit "]")] (MessagesDone cfg closing)
        (finishMessages lib closing v) := by
      rintro v ⟨s, rfl⟩
      cases closing <;> exact .of_bytes rfl ⟨_, _, rfl⟩
    refine ((hstart.bind fun v hv => Writes.foldlM (fun n s m _ hs => writes_addMessage hs m) hv).bind hclose).congr ?_
    simp [hopen, member, array, Function.comp_def]

lemma finishItems_eq : finishItems lib = fun w => (finishMessages lib true w).map closeItems := by
  funext w
  rw [finishItems, finishMessages]
  cases w.closed <;> simp [Function.comp_def]

lemma writes_items (messages : Option (List Message)) {items : Option (List Item)}
    (hcontent : ∀ item ∈ items.getD [], item.kind = .message → item.content ≠ []) :
    Writes lib hashed [] (headPieces cfg ++ .bytes (lit ",") :: member (lit "Messages")
      (slice Message.json (messages.map (map settleMessage))) ++
      .bytes (lit ",") :: member (lit "Items") (slice json items)) (fun v => v.cfg = cfg)
      (((newCallIdentityWriter cfg).writeMessages lib messages).bind fun w =>
        (w.writeItems lib items).bind (finishItems lib)) := by
  cases items with
  | none =>
    have hnull :
        lit ",\"Items\":null" = lit "," ++ (quote (lit "Items") ++ (lit ":" ++ lit "null")) := by
      decide +kernel
    have hall : Writes lib hashed [] _ (fun v => v.cfg = cfg) _ :=
      (writes_messages true messages).map (f := closeItems) fun v hv => by
        obtain ⟨s, k, rfl⟩ := hv
        exact ⟨rfl, rfl⟩
    rw [map_bind] at hall
    rw [finishItems_eq]
    refine hall.congr ?_
    simp [hnull, member, null]
  | some items =>
    have hopen : lit ",\"Items\":[" = lit "," ++ (quote (lit "Items") ++ (lit ":" ++ lit "[")) := by
      decide +kernel
    have hsame : (((newCallIdentityWriter cfg).writeMessages lib messages).bind fun w =>
        (w.writeItems lib (some items)).bind (finishItems lib)) =
        (((newCallIdentityWriter cfg).writeMessages lib messages).bind (finishMessages lib false)).bind fun v =>
          (some v.openItems).bind fun w => (items.foldlM (addItem lib) w).bind (finishItems lib) := by
      cases (newCallIdentityWriter cfg).writeMessages lib messages with
      | none => rfl
      | some w =>
        change (((ensurePrefix lib w).map _).bind _).bind _ = ((ensurePrefix lib w).map closeMessages).bind _
        cases ensurePrefix lib w <;> rfl
    rw [hsame]
    refine ((writes_messages false messages).bind fun v hv => (?_ : Writes lib hashed v.hashed
      ([.bytes (lit ",\"Items\":[")] ++ (entries 0 (items.map json) ++ [.bytes (lit "]")])) _ _)).congr ?_
    · obtain ⟨s, k, rfl⟩ := hv
      refine Writes.bind (P := AtItems cfg k 0) (.of_bytes rfl ⟨_, rfl⟩) fun v hv => ?_
      refine (Writes.foldlM (fun n s item hitem hs => writes_addItem hs (hcontent item hitem)) hv).bind fun u hu => ?_
      obtain ⟨s, rfl⟩ := hu
      exact .of_bytes rfl rfl
    · simp [hopen, member, array]

def tailMembers (cfg : CallIdentityConfig) : List Pieces :=
  [member (lit "PreviousResponseID") (str cfg.previousResponseID),
    member (lit "PromptCacheKey") (str cfg.promptCacheKey),
    member (lit "SemanticExtensions") (slice SemanticExtension.json cfg.semanticExtensions),
    member (lit "Tools") (slice ToolDef.json cfg.tools),
    member (lit "ToolChoice") cfg.toolChoice.json,
    member (lit "Options") cfg.options.json,
    member (lit "Extensions") (mapping raw cfg.extensions)]

lemma writes_tail (h : w.cfg = cfg) :
    Writes lib hashed w.hashed (.bytes (lit ",") :: (commas (tailMembers cfg) ++ [.bytes (lit "\x7d")]))
      (fun _ => True) (w.writeTail lib) := by
  let keeps : CallIdentityWriter → Prop := fun w => w.cfg = cfg
  have hfield :
      ∀ (name : String) (value : CallIdentityConfig → Pieces), escape (lit name) = lit name →
      ∀ w, keeps w →
        Writes lib hashed w.hashed (.bytes (lit ",") :: member (lit name) (value cfg)) keeps
        (w.emitField lib name (value w.cfg)) :=
    fun name value hname w h => writes_emitField name value hname h fun _ => h
  have hall : Writes lib hashed w.hashed _ (fun _ => True) _ :=
    (hfield "PreviousResponseID" (fun c => str c.previousResponseID) (by decide +kernel) w h).bind fun w h =>
    (hfield "PromptCacheKey" (fun c => str c.promptCacheKey) (by decide +kernel) w h).bind fun w h =>
    (hfield "SemanticExtensions" (fun c => slice SemanticExtension.json c.semanticExtensions)
      (by decide +kernel) w h).bind fun w h =>
    (hfield "Tools" (fun c => slice ToolDef.json c.tools) (by decide +kernel) w h).bind fun w h =>
    (hfield "ToolChoice" (fun c => c.toolChoice.json) (by decide +kernel) w h).bind fun w h =>
    (hfield "Options" (fun c => c.options.json) (by decide +kernel) w h).bind fun w h =>
    (hfield "Extensions" (fun c => mapping raw c.extensions) (by decide +kernel) w h).bind
      fun w _ => .of_bytes (s := w.emit (lit "\x7d")) rfl trivial
  refine hall.congr ?_
  simp [tailMembers]

lemma writeCall_eq (lib : JsonLibrary) (cfg : CallIdentityConfig) {c : Call}
    (hdecision : c.decision = none)
    (hcontent : ∀ item ∈ c.items.getD [], item.kind = .message → item.content ≠ []) :
    (newCallIdentityWriter cfg).writeCall lib c =
    lib.marshal { settleCall c with id := [] }.json := by
  have hcall : (newCallIdentityWriter cfg).writeCall lib c =
      ((((newCallIdentityWriter (configure c)).writeMessages lib c.messages).bind fun w =>
        (w.writeItems lib c.items).bind (finishItems lib)).bind (writeTail lib)).map hashed := by
    change ((newCallIdentityWriter (configure c)).writeMessages lib c.messages).bind (fun w =>
      (w.writeItems lib c.items).bind (digest lib)) = _
    cases (newCallIdentityWriter (configure c)).writeMessages lib c.messages with
    | none => rfl
    | some w =>
      simp only [bind_some]
      cases w.writeItems lib c.items with
      | none => rfl
      | some v => rfl
  have hjson : { settleCall c with id := [] }.json =
      .bytes (lit "\x7b") :: .bytes (quote (lit "ID") ++ lit ":") ::
      .bytes (quote []) :: ((headPieces (configure c)).tail ++ .bytes (lit ",") :: member (lit "Messages")
        (slice Message.json (c.messages.map (map settleMessage))) ++
      .bytes (lit ",") :: member (lit "Items") (slice json c.items) ++
      .bytes (lit ",") :: (commas (tailMembers (configure c)) ++ [.bytes (lit "\x7d")])) := by
    simp [headPieces, tailMembers, Call.json, settleCall, configure, object, hdecision, member, str]
  have hid : lit "\x7b\"ID\":\"\"" =
    lit "\x7b" ++ (quote (lit "ID") ++ lit ":" ++ quote []) := by decide +kernel
  rw [hcall, ((writes_items c.messages hcontent).bind fun v hv => writes_tail hv).map_out, hjson, headPieces]
  simp [hid]

end CallIdentityWriter

def HasEmptyContent (c : Call) : Prop :=
  ∃ m ∈ c.messages.getD [], ∃ p ∈ m.parts.getD [], isPlainStreamingTextPart p ∧ p.content ≠ none

lemma settlePart_eq {p : Part} (h : isPlainStreamingTextPart p → p.content = none) :
    settlePart p = p := by
  rw [settlePart]
  split_ifs with hp
  · rw [← h hp]
  · rfl

lemma settleCall_eq {c : Call} (h : ¬ HasEmptyContent c) : settleCall c = c := by
  have hpart : ∀ m ∈ c.messages.getD [], ∀ p ∈ m.parts.getD [], settlePart p = p := by
    intro m hm p hp
    refine settlePart_eq fun hplain => ?_
    by_contra hne
    exact h ⟨m, hm, p, hp, hplain, hne⟩
  have hmessage : ∀ m ∈ c.messages.getD [], settleMessage m = m := by
    intro m hm
    have hparts := hpart m hm
    rw [settleMessage]
    obtain ⟨role, parts⟩ := m
    cases parts with
    | none => rfl
    | some parts =>
      have hid : parts.map settlePart = parts := (map_congr_left hparts).trans (map_id parts)
      simp [hid]
  rw [settleCall]
  obtain ⟨_, _, _, _, messages, _⟩ := c
  cases messages with
  | none => rfl
  | some messages =>
    have hid : messages.map settleMessage = messages :=
      (map_congr_left hmessage).trans (map_id messages)
    simp [hid]

lemma canonicalCallIdentity_eq_none {lib : JsonLibrary} {c : Call} (h : HasEmptyContent c) :
    canonicalCallIdentity lib c = none := by
  obtain ⟨m, hm, p, hp, hplain, hne⟩ := h
  have hempty : p.content = some [] := by
    simp only [isPlainStreamingTextPart, Bool.and_eq_true, List.isEmpty_iff] at hplain
    obtain ⟨value, hvalue⟩ := ne_none_iff_exists'.mp hne
    rw [hplain.1.2.symm, hvalue]
    rfl
  have hpart : raw p.content ⊆ p.json := subset_object (lit "Content") _ (by simp)
  have hmessage : p.json ⊆ m.json :=
    List.Subset.trans (subset_slice hp)
      (subset_object (lit "Parts") (slice Part.json m.parts) (by simp))
  have hcall : m.json ⊆ { c with id := [] }.json :=
    List.Subset.trans (subset_slice hm)
      (subset_object (lit "Messages") (slice Message.json c.messages) (by simp))
  rw [hempty] at hpart
  exact (marshal_eq_none lib).mpr ⟨_, hcall (hmessage (hpart (mem_singleton_self _))), lib.compact_nil⟩

/-- The stream of a valid call without a decision is the JSON of the call, unless a plain text of it
has empty content that is not nil: the library refuses to encode that, and the stream has `null`
there. -/
theorem streamed_identity_iff (lib : Library) (cfg : CallIdentityConfig) (c : Call)
    (hvalid : c.validate lib = .ok ()) (hdecision : c.decision = none) :
    (newCallIdentityWriter cfg).writeCall lib.toJsonLibrary c =
    canonicalCallIdentity lib.toJsonLibrary c ↔
      ¬ HasEmptyContent c ∨
      ∃ piece ∈ { settleCall c with id := [] }.json, lib.toJsonLibrary.render piece = none := by
  rw [writeCall_eq lib.toJsonLibrary cfg hdecision fun item hitem hkind =>
    Call.validate_content hvalid hdecision hitem hkind]
  by_cases hempty : HasEmptyContent c
  · rw [canonicalCallIdentity_eq_none hempty, marshal_eq_none]
    exact ⟨.inr, fun h => h.resolve_left (not_not_intro hempty)⟩
  · rw [settleCall_eq hempty]
    exact ⟨fun _ => .inl hempty, fun _ => rfl⟩

def plainLibrary : Library where
  compact s := if s = [] then none else some s
  number _ := none
  compact_nil := rfl
  valid s := !s.isEmpty
  decodeString _ := none
  decodeType _ := none
  keys _ := none
  toLower s := s

def greeting (content : RawMessage) : Call where
  route := ⟨lit "openai:gpt"⟩
  messages := some [⟨roleUser, some [{ kind := .text, text := lit "hi <there>", content := content }]⟩,
    ⟨roleAssistant, some [{ kind := .text, text := lit "hi" }, { kind := .text, text := lit "you" }]⟩]

/-- The greeting as an item with two parts of content, and a tool call behind it. -/
def toolGreeting : Call where
  route := ⟨lit "openai:gpt"⟩
  items := some [
    { kind := .message, id := lit "1", role := roleUser,
      content := [{ kind := .text, text := lit "hi <there>" }, { kind := .text, text := lit "you" }] },
    { kind := .toolCall, id := lit "2", toolCall := some { callID := lit "c", name := lit "wave" } }]

theorem streamed_identity_greeting :
    [greeting none, toolGreeting].map (·.validate plainLibrary) = [.ok (), .ok ()] ∧
    [greeting none, toolGreeting].map
        ((newCallIdentityWriter {}).writeCall plainLibrary.toJsonLibrary) =
      [greeting none, toolGreeting].map (canonicalCallIdentity plainLibrary.toJsonLibrary) := by
  have hvalid : ∀ c ∈ [greeting none, toolGreeting], c.validate plainLibrary = .ok () :=
    forall_mem_cons.mpr ⟨by decide +kernel, forall_mem_singleton.mpr (by decide +kernel)⟩
  have hplain : ∀ c ∈ [greeting none, toolGreeting], c.decision = none ∧ ¬ HasEmptyContent c := by
    simp [HasEmptyContent, greeting, toolGreeting]
  exact ⟨map_congr_left hvalid, map_congr_left fun c hc =>
    (streamed_identity_iff plainLibrary {} c (hvalid c hc) (hplain c hc).1).mpr (.inl (hplain c hc).2)⟩

theorem streamed_identity_differs :
    (greeting (some [])).validate plainLibrary = .ok () ∧ (greeting (some [])).decision = none ∧
      (newCallIdentityWriter {}).writeCall plainLibrary.toJsonLibrary (greeting (some [])) ≠ none ∧
      canonicalCallIdentity plainLibrary.toJsonLibrary (greeting (some [])) = none := by
  refine ⟨by decide +kernel, rfl, by decide +kernel, by decide +kernel⟩

end InteractiveProxy.LargeBody
