/-!
# Bytes read a line at a time

A stream of bytes is read through its next newline, or through its end if no
newline is left, and what was read is decoded (`readLine`).  Reading can find
nothing, give a line, or fail because the bytes encode no text.  A line that
fails is passed over all the same.

What a stream has to offer in the end is the text of its lines before the
first that fails (`textOf`), and `textOf_readLine` says how one line after the
other comes to that.
-/

namespace Forth

/-! ## Lines as text -/

/-- The bytes that encode a text. -/
def encoded (cs : List Char) : List UInt8 := cs.flatMap String.utf8EncodeChar

/-- The characters of a line of bytes, if it is well formed. -/
def decodeLine (line : List UInt8) : Option (List Char) :=
  (String.fromUTF8? ⟨line.toArray⟩).map String.toList

theorem encoded_append (cs ds : List Char) :
    encoded (cs ++ ds) = encoded cs ++ encoded ds :=
  List.flatMap_append

/-- Every character takes a byte at least. -/
theorem length_le_encoded (cs : List Char) :
    cs.length ≤ (encoded cs).length := by
  induction cs with
  | nil => exact Nat.le_refl 0
  | cons c cs ih =>
    have positive := c.utf8Size_pos
    show cs.length + 1 ≤ (String.utf8EncodeChar c ++ encoded cs).length
    rw [List.length_append, String.length_utf8EncodeChar]
    omega

/-- The byte of the newline is in the encoding of no other character. -/
theorem newline_mem_utf8EncodeChar {c : Char} :
    10 ∈ String.utf8EncodeChar c ↔ c = '\n' := by
  have value (n : Nat) : (10 : UInt8) = UInt8.ofNat n ↔ 10 = n % 256 := by
    rw [← UInt8.toNat_inj]
    simp
  constructor
  · intro mem
    refine Char.ext (UInt32.toNat_inj.1 ?_)
    show c.val.toNat = 10
    unfold String.utf8EncodeChar at mem
    dsimp only at mem
    -- No byte of a longer encoding is as low as the newline.
    split at mem
    · rw [List.mem_singleton, value] at mem
      omega
    · split at mem
      · simp only [List.mem_cons, List.not_mem_nil, or_false, value] at mem
        omega
      · split at mem
        · simp only [List.mem_cons, List.not_mem_nil, or_false, value] at mem
          omega
        · simp only [List.mem_cons, List.not_mem_nil, or_false, value] at mem
          omega
  · rintro rfl
    decide

/-- So a text has a newline just where its bytes have one. -/
theorem newline_mem_encoded {cs : List Char} :
    10 ∈ encoded cs ↔ '\n' ∈ cs := by
  unfold encoded
  rw [List.mem_flatMap]
  constructor
  · rintro ⟨c, mem, newline⟩
    rwa [← newline_mem_utf8EncodeChar.1 newline]
  · exact fun mem => ⟨'\n', mem, newline_mem_utf8EncodeChar.2 rfl⟩

/-- Bytes that end with a newline encode a text that does. -/
theorem eq_append_newline_of_encoded {cs : List Char} {line : List UInt8}
    (encodes : encoded cs = line ++ [10]) :
    ∃ front, cs = front ++ ['\n'] ∧ encoded front = line := by
  rcases List.eq_nil_or_concat cs with rfl | ⟨front, c, rfl⟩
  · exact absurd (congrArg List.length encodes) (by simp [encoded])
  · rw [List.concat_eq_append, encoded_append] at encodes
    have filled : encoded [c] ≠ [] := by
      simp [encoded, String.utf8EncodeChar_ne_nil]
    -- The last byte is one of the last character, which is the newline then.
    have last := congrArg List.getLast? encodes
    rw [List.getLast?_append, List.getLast?_concat,
      List.getLast?_eq_some_getLast filled, Option.some_or] at last
    have mem := List.mem_of_getLast? (List.getLast?_eq_some_getLast filled)
    rw [Option.some.inj last, newline_mem_encoded, List.mem_singleton] at mem
    subst mem
    exact ⟨front, List.concat_eq_append .., List.append_cancel_right encodes⟩

/-- A line is decoded to the text that it encodes. -/
theorem decodeLine_eq_some_iff {line : List UInt8} {cs : List Char} :
    decodeLine line = some cs ↔ encoded cs = line := by
  have bytes : (⟨line.toArray⟩ : ByteArray) = (String.ofList cs).toByteArray ↔
      encoded cs = line := by
    rw [String.toByteArray_ofList]
    constructor
    · intro h
      have data := congrArg (fun b : ByteArray => b.data.toList) h
      rw [List.utf8Encode] at data
      simpa [encoded] using data.symm
    · rintro rfl
      refine ByteArray.ext (Array.toList_inj.1 ?_)
      simp [encoded, List.utf8Encode]
  rw [← bytes]
  unfold decodeLine String.fromUTF8?
  split
  · next valid =>
    have decoded : (⟨line.toArray⟩ : ByteArray) =
        (String.ofList cs).toByteArray ↔
        String.fromUTF8 _ valid = String.ofList cs :=
      String.toByteArray_inj (s := String.fromUTF8 _ valid)
    rw [decoded, Option.map_some, Option.some_inj]
    exact ⟨fun h => by rw [← h, String.ofList_toList],
      fun h => by rw [h, String.toList_ofList]⟩
  · next invalid =>
    refine ⟨nofun, fun h => absurd ?_ invalid⟩
    rw [h]
    exact (String.ofList cs).isValidUTF8

/-! ## One line after the other -/

/-- The bytes through the first newline, or all if there is none, and the
bytes behind them. -/
def cutLine : List UInt8 → List UInt8 × List UInt8
  | [] => ([], [])
  | b :: bytes =>
    if b = 10 then ([b], bytes)
    else (b :: (cutLine bytes).1, (cutLine bytes).2)

/-- What reading a line comes to. -/
inductive LineRead where
  /-- No byte is left. -/
  | ended
  | line (text : List Char)
  /-- The bytes of the line encode no text. -/
  | failed
deriving DecidableEq, Repr

/-- A line that was read is nothing only if there was nothing to read. -/
def LineRead.ofLine (line : List UInt8) : LineRead :=
  if line = [] then .ended
  else match decodeLine line with
    | none => .failed
    | some text => .line text

/-- Read the next line of some bytes, which leaves the bytes behind it. -/
def readLine (bytes : List UInt8) : LineRead × List UInt8 :=
  let (line, rest) := cutLine bytes
  (.ofLine line, rest)

/-- Cut bytes into lines.  Each line keeps its newline, the last one may have
none. -/
def byteLines : List UInt8 → List (List UInt8)
  | [] => []
  | b :: bs =>
    if b = 10 then [b] :: byteLines bs
    else match byteLines bs with
      | [] => [[b]]
      | l :: ls => (b :: l) :: ls

/-- The text of the lines before the first malformed one. -/
def decodeLines : List (List UInt8) → List Char
  | [] => []
  | l :: ls =>
    match decodeLine l with
    | none => []
    | some cs => cs ++ decodeLines ls

/-- The text that reading some bytes line by line gives in the end. -/
def textOf (bytes : List UInt8) : List Char := decodeLines (byteLines bytes)

/-- Nothing is lost where a line is cut off. -/
theorem cutLine_append (bytes : List UInt8) :
    (cutLine bytes).1 ++ (cutLine bytes).2 = bytes := by
  induction bytes with
  | nil => rfl
  | cons b bytes ih =>
    unfold cutLine
    split
    · rfl
    · exact congrArg (b :: ·) ih

/-- Only at the end of the bytes is there no line. -/
theorem cutLine_eq_nil_iff {bytes : List UInt8} :
    (cutLine bytes).1 = [] ↔ bytes = [] := by
  cases bytes with
  | nil => exact ⟨fun _ => rfl, fun _ => rfl⟩
  | cons b bytes =>
    unfold cutLine
    split
    · exact ⟨nofun, nofun⟩
    · exact ⟨nofun, nofun⟩

/-- The newline of a line is its last byte, and the last line may have
none. -/
theorem cutLine_cases (bytes : List UInt8) :
    (∃ line, 10 ∉ line ∧ (cutLine bytes).1 = line ++ [10]) ∨
      10 ∉ (cutLine bytes).1 ∧ (cutLine bytes).2 = [] := by
  induction bytes with
  | nil => exact .inr ⟨nofun, rfl⟩
  | cons b bytes ih =>
    unfold cutLine
    split
    · next newline => exact .inl ⟨[], nofun, by rw [newline]; rfl⟩
    · next other =>
      rcases ih with ⟨line, within, cut⟩ | ⟨within, ended⟩
      · refine .inl ⟨b :: line, ?_, by rw [cut]; rfl⟩
        simp [Ne.symm other, within]
      · refine .inr ⟨?_, ended⟩
        simp [Ne.symm other, within]

/-- The first of the lines is the one that is cut off. -/
theorem byteLines_of_ne_nil {bytes : List UInt8} (something : bytes ≠ []) :
    byteLines bytes = (cutLine bytes).1 :: byteLines (cutLine bytes).2 := by
  induction bytes with
  | nil => exact absurd rfl something
  | cons b bytes ih =>
    rw [byteLines, cutLine]
    split
    · rfl
    · cases bytes with
      | nil => rfl
      | cons b' bytes => rw [ih (List.cons_ne_nil b' bytes)]

/-- **Line by line the text of the bytes is read.** -/
theorem textOf_readLine (bytes : List UInt8) :
    textOf bytes = match (readLine bytes).1 with
      | .line cs => cs ++ textOf (readLine bytes).2
      | _ => [] := by
  show textOf bytes = match LineRead.ofLine (cutLine bytes).1 with
    | .line cs => cs ++ textOf (cutLine bytes).2
    | _ => []
  unfold LineRead.ofLine
  by_cases ended : bytes = []
  · rw [ended]
    rfl
  · rw [if_neg (mt cutLine_eq_nil_iff.1 ended), textOf,
      byteLines_of_ne_nil ended, decodeLines]
    cases decodeLine (cutLine bytes).1 with
    | none => rfl
    | some cs => rfl

/-- A line that is read is the text of the one that is cut off, and there is
something of it. -/
theorem encoded_of_readLine {bytes : List UInt8} {cs : List Char}
    (read : (readLine bytes).1 = .line cs) :
    encoded cs = (cutLine bytes).1 ∧ cs ≠ [] := by
  replace read : LineRead.ofLine (cutLine bytes).1 = .line cs := read
  unfold LineRead.ofLine at read
  split at read
  · cases read
  · next filled =>
    split at read
    · cases read
    · next cs' decoded =>
      cases read
      have encodes := decodeLine_eq_some_iff.1 decoded
      refine ⟨encodes, fun empty => filled ?_⟩
      rw [← encodes, empty]
      rfl

/-- A line has no more characters than bytes. -/
theorem length_readLine {bytes : List UInt8} {cs : List Char}
    (read : (readLine bytes).1 = .line cs) :
    cs.length + (readLine bytes).2.length ≤ bytes.length := by
  have bound := length_le_encoded cs
  have whole := congrArg List.length (cutLine_append bytes)
  rw [(encoded_of_readLine read).1] at bound
  rw [List.length_append] at whole
  show cs.length + (cutLine bytes).2.length ≤ bytes.length
  omega

/-- All lines together have no more characters than bytes. -/
theorem length_textOf (bytes : List UInt8) :
    (textOf bytes).length ≤ bytes.length := by
  induction length : bytes.length using Nat.strongRecOn generalizing bytes
  next n ih =>
  rw [textOf_readLine]
  split
  · next cs read =>
    have bound := length_readLine read
    have positive := List.length_pos_iff.2 (encoded_of_readLine read).2
    have rest := ih _ (by omega) (readLine bytes).2 rfl
    rw [List.length_append]
    omega
  · exact Nat.zero_le _

/-- The newline of a line that is read is its last character, and only the
last line has none. -/
theorem readLine_cases {bytes : List UInt8} {cs : List Char}
    (read : (readLine bytes).1 = .line cs) :
    (∃ line, '\n' ∉ line ∧ cs = line ++ ['\n']) ∨
      '\n' ∉ cs ∧ (readLine bytes).2 = [] := by
  obtain ⟨encodes, _⟩ := encoded_of_readLine read
  rcases cutLine_cases bytes with ⟨line, within, cut⟩ | ⟨within, ended⟩
  · obtain ⟨front, rfl, before⟩ :=
      eq_append_newline_of_encoded (encodes.trans cut)
    refine .inl ⟨front, fun newline => within ?_, rfl⟩
    exact before ▸ newline_mem_encoded.2 newline
  · exact .inr ⟨fun newline => within (encodes ▸ newline_mem_encoded.2 newline),
      ended⟩

end Forth
