import BuduWaf.Lib.Utf8

/-!
# Lines of bytes

The lines of a byte string, whatever its encoding. A line ends with a line feed and whatever
carriage returns stand before it; where the bytes are a text, the lines are the text's
(`byteLines_utf8`), and a file written line by line has the lines that were written
(`byteLines_append`).

Files are bytes and need not be text. `byteLines` cuts them without decoding, and the theorem that
ties it to `str::lines` holds where they are the encoding of a text: a line feed is a byte of its
own there, as every byte of a longer character is at least `0x80` (`mem_of_mem_utf8`). A line is
compared up to the carriage returns at its end (`chomp`), which are white space to all who read it
(`eq_chomp_append`).
-/

namespace BuduWaf.Str

/-! ## ASCII inside UTF-8 -/

/-- An ASCII byte in the encoding of a character is all of it. -/
theorem utf8EncodeChar_of_mem {c : Char} {b : UInt8} (h : b ∈ String.utf8EncodeChar c)
    (hb : b.toNat < 0x80) : String.utf8EncodeChar c = [b] ∧ c.toNat = b.toNat := by
  have hval : c.val.toNat = c.toNat := rfl
  have hbounds := scalar_bounds c
  unfold String.utf8EncodeChar at h ⊢
  simp only [hval] at h ⊢
  by_cases h1 : c.toNat ≤ 0x7F
  · rw [if_pos h1, List.mem_singleton] at h
    have hvalue : b.toNat = c.toNat := h ▸ toNat_ofNat_byte (by omega)
    rw [if_pos h1, h]
    exact ⟨rfl, by rw [← h, hvalue]⟩
  -- Longer encodings have no ASCII byte.
  exfalso
  rw [if_neg h1] at h
  by_cases h2 : c.toNat ≤ 0x7FF
  · rw [if_pos h2] at h
    have h₀ := toNat_ofNat_byte (n := c.toNat / 64 % 32 + 0xC0) (by omega)
    have h₁ := toNat_ofNat_byte (n := c.toNat % 64 + 0x80) (by omega)
    simp only [List.mem_cons, List.not_mem_nil, or_false] at h
    rcases h with rfl | rfl <;> omega
  rw [if_neg h2] at h
  by_cases h3 : c.toNat ≤ 0xFFFF
  · rw [if_pos h3] at h
    have h₀ := toNat_ofNat_byte (n := c.toNat / 4096 % 16 + 0xE0) (by omega)
    have h₁ := toNat_ofNat_byte (n := c.toNat / 64 % 64 + 0x80) (by omega)
    have h₂ := toNat_ofNat_byte (n := c.toNat % 64 + 0x80) (by omega)
    simp only [List.mem_cons, List.not_mem_nil, or_false] at h
    rcases h with rfl | rfl | rfl <;> omega
  rw [if_neg h3] at h
  have h₀ := toNat_ofNat_byte (n := c.toNat / 262144 % 8 + 0xF0) (by omega)
  have h₁ := toNat_ofNat_byte (n := c.toNat / 4096 % 64 + 0x80) (by omega)
  have h₂ := toNat_ofNat_byte (n := c.toNat / 64 % 64 + 0x80) (by omega)
  have h₃ := toNat_ofNat_byte (n := c.toNat % 64 + 0x80) (by omega)
  simp only [List.mem_cons, List.not_mem_nil, or_false] at h
  rcases h with rfl | rfl | rfl | rfl <;> omega

/-- An ASCII byte of a text is one of its characters. -/
theorem mem_of_mem_utf8 {s : Str} {b : UInt8} (h : b ∈ utf8 s) (hb : b.toNat < 0x80) :
    Char.ofNat b.toNat ∈ s := by
  obtain ⟨c, hc, hmem⟩ := List.mem_flatMap.mp h
  obtain ⟨-, hvalue⟩ := utf8EncodeChar_of_mem hmem hb
  rw [← hvalue, Char.ofNat_toNat]
  exact hc

/-- Every character has at least one byte. -/
theorem utf8EncodeChar_ne_nil (c : Char) : String.utf8EncodeChar c ≠ [] := by
  obtain ⟨b, tail, h, -⟩ := decodeOne_utf8EncodeChar c []
  rw [h]
  exact List.cons_ne_nil b tail

/-! ## Lines -/

/-- A line without the carriage returns at its end. -/
def chompBytes (line : Bytes) : Bytes := line.rdropWhile (· == 0x0D)

/-- A text without the carriage returns at its end. -/
def chomp (line : Str) : Str := line.rdropWhile (· == '\r')

/-- The lines of a byte string, the current one held in reverse. -/
def byteLinesFrom : Bytes → Bytes → List Bytes
  | [], [] => []
  | cur, [] => [chompBytes cur.reverse]
  | cur, b :: rest =>
    if b = 0x0A then chompBytes cur.reverse :: byteLinesFrom [] rest
    else byteLinesFrom (b :: cur) rest

/-- The lines of a byte string, without the line feeds between them. -/
def byteLines (b : Bytes) : List Bytes := byteLinesFrom [] b

/-- Bytes without a line feed are all read into the line that is being read. -/
theorem byteLinesFrom_append {line : Bytes} (h : (0x0A : UInt8) ∉ line) (cur rest : Bytes) :
    byteLinesFrom cur (line ++ rest) = byteLinesFrom (line.reverse ++ cur) rest := by
  induction line generalizing cur with
  | nil => rfl
  | cons b line ih =>
      have hb : (0x0A : UInt8) ≠ b := List.ne_of_not_mem_cons h
      have hline : (0x0A : UInt8) ∉ line := List.not_mem_of_not_mem_cons h
      rw [List.cons_append, byteLinesFrom.eq_def]
      simp only
      rw [if_neg (Ne.symm hb), ih hline, List.reverse_cons, List.append_assoc]
      rfl

/-- A line that was written is the first one of what was written. -/
theorem byteLines_append {line : Bytes} (h : (0x0A : UInt8) ∉ line) (rest : Bytes) :
    byteLines (line ++ 0x0A :: rest) = chompBytes line :: byteLines rest := by
  rw [byteLines, byteLinesFrom_append h, List.append_nil, byteLinesFrom.eq_def]
  simp only [if_true, List.reverse_reverse]
  rfl

/-- Carriage returns of a text and of its bytes. -/
theorem chompBytes_utf8 (s : Str) : chompBytes (utf8 s) = utf8 (chomp s) := by
  unfold chompBytes chomp
  induction s using List.reverseRecOn with
  | nil => rfl
  | append_singleton s c ih =>
      have hbytes : utf8 (s ++ [c]) = utf8 s ++ String.utf8EncodeChar c := by simp
      by_cases hc : c = '\r'
      · subst hc
        have hcr : String.utf8EncodeChar '\r' = [0x0D] := rfl
        rw [hbytes, hcr, List.rdropWhile_concat_pos _ _ _ rfl,
          List.rdropWhile_concat_pos _ _ _ rfl, ih]
      · obtain ⟨front, last, hlast⟩ : ∃ front last, String.utf8EncodeChar c = front ++ [last] :=
          ⟨_, _, (List.dropLast_append_getLast (utf8EncodeChar_ne_nil c)).symm⟩
        have hne : ¬ (fun b : UInt8 => b == 0x0D) last = true := by
          intro h
          have hmem : last ∈ String.utf8EncodeChar c := by simp [hlast]
          rw [eq_of_beq h] at hmem
          have hvalue := (utf8EncodeChar_of_mem hmem (by decide)).2
          apply hc
          rw [← Char.ofNat_toNat c, hvalue]
          rfl
        have hcne : ¬ (fun d : Char => d == '\r') c = true := fun h => hc (eq_of_beq h)
        rw [hbytes, hlast, ← List.append_assoc,
          List.rdropWhile_concat_neg (fun b : UInt8 => b == 0x0D) _ last hne,
          List.rdropWhile_concat_neg (fun d : Char => d == '\r') _ c hcne, hbytes, hlast,
          List.append_assoc]

/-- A line ends at its line feed, but for a carriage return. -/
theorem linesFrom_lf (cur s : Str) :
    ∃ line, linesFrom cur ('\n' :: s) = line :: linesFrom [] s ∧
      chomp line = chomp cur.reverse := by
  rw [linesFrom.eq_def]
  simp only [if_true]
  refine ⟨_, rfl, ?_⟩
  split
  · rename_i line
    rw [List.reverse_cons]
    exact (List.rdropWhile_concat_pos _ _ _ rfl).symm
  · rfl

/-- **The lines of a text's bytes** are the text's lines. -/
theorem byteLinesFrom_utf8 (s cur : Str) :
    byteLinesFrom (utf8 cur.reverse).reverse (utf8 s) =
      (linesFrom cur s).map fun line => utf8 (chomp line) := by
  induction s generalizing cur with
  | nil =>
      cases hcur : (utf8 cur.reverse).reverse with
      | nil =>
          have hempty : utf8 cur.reverse = [] := List.reverse_eq_nil_iff.mp hcur
          cases cur with
          | nil => rfl
          | cons c cur =>
              rw [List.reverse_cons, utf8_append] at hempty
              have hchar := (List.append_eq_nil_iff.mp hempty).2
              exact absurd hchar (by simp)
      | cons b bytes =>
          have hline : chompBytes (b :: bytes).reverse = utf8 (chomp cur.reverse) := by
            rw [← hcur, List.reverse_reverse, chompBytes_utf8]
          cases cur with
          | nil => cases hcur
          | cons c cur =>
              show [chompBytes (b :: bytes).reverse] = _
              rw [hline]
              rfl
  | cons c s ih =>
      by_cases hc : c = '\n'
      · subst hc
        have hlf : utf8 ('\n' :: s) = 0x0A :: utf8 s := rfl
        have hrest := ih []
        obtain ⟨line, hlines, hline⟩ := linesFrom_lf cur s
        rw [hlf, byteLinesFrom.eq_def]
        simp only [if_true, List.reverse_reverse]
        rw [hlines, List.map_cons, chompBytes_utf8, ← hline]
        exact congrArg (_ :: ·) hrest
      · have hlf : (0x0A : UInt8) ∉ String.utf8EncodeChar c := by
          intro hmem
          have hvalue := (utf8EncodeChar_of_mem hmem (by decide)).2
          apply hc
          rw [← Char.ofNat_toNat c, hvalue]
          rfl
        have hpush : (utf8 (c :: cur).reverse).reverse =
            (String.utf8EncodeChar c).reverse ++ (utf8 cur.reverse).reverse := by
          simp
        rw [utf8_cons, byteLinesFrom_append hlf, ← hpush, ih (c :: cur), linesFrom.eq_def cur]
        simp only
        rw [if_neg hc]

/-- The lines of the bytes of a text are the bytes of its lines, without their ends. -/
theorem byteLines_utf8 (s : Str) : byteLines (utf8 s) = (lines s).map fun line =>
    utf8 (chomp line) := byteLinesFrom_utf8 s []

/-- A line of a text has no line feed in it. -/
theorem lf_notMem_of_mem_lines {s line : Str} (h : line ∈ lines s) : '\n' ∉ line := by
  have hfrom : ∀ (s cur : Str), '\n' ∉ cur → ∀ line ∈ linesFrom cur s, '\n' ∉ line := by
    intro s
    induction s with
    | nil =>
        intro cur hcur line hline
        cases cur with
        | nil => cases hline
        | cons c cur =>
            obtain rfl := List.mem_singleton.mp hline
            simpa [and_comm] using hcur
    | cons c s ih =>
        intro cur hcur line hline
        rw [linesFrom.eq_def] at hline
        simp only at hline
        by_cases hc : c = '\n'
        · rw [if_pos hc] at hline
          rcases List.mem_cons.mp hline with rfl | hline
          · split
            · rename_i line
              have hrest := List.not_mem_of_not_mem_cons hcur
              simpa using hrest
            · simpa using hcur
          · exact ih [] List.not_mem_nil line hline
        · rw [if_neg hc] at hline
          refine ih (c :: cur) ?_ line hline
          intro hmem
          rcases List.mem_cons.mp hmem with heq | hmem
          · exact hc heq.symm
          · exact hcur hmem
  exact hfrom s [] List.not_mem_nil line h

/-! ## White space at the end -/

/-- A text without line feeds is one line. -/
theorem lines_of_notMem {s : Str} (hne : s ≠ []) (h : '\n' ∉ s) : lines s = [s] := by
  have hfrom : ∀ cur, cur ≠ [] ∨ s ≠ [] → linesFrom cur s = [cur.reverse ++ s] := by
    clear hne
    induction s with
    | nil =>
        intro cur hcur
        cases cur with
        | nil => simp at hcur
        | cons d cur => simp [linesFrom]
    | cons c s ih =>
        intro cur _
        rw [linesFrom.eq_def]
        simp only
        rw [if_neg (Ne.symm (List.ne_of_not_mem_cons h)), ih (List.not_mem_of_not_mem_cons h)
          _ (Or.inl (List.cons_ne_nil c cur))]
        simp
  exact hfrom [] (Or.inr hne)

/-- Trailing white space is trimmed whatever stands before it. -/
theorem trim_append_of_forall (s : Str) {w : Str} (h : ∀ c ∈ w, isWhitespace c = true) :
    trim (s ++ w) = trim s := by
  have hall : w.dropWhile isWhitespace = [] := List.dropWhile_eq_nil_iff.mpr h
  have hback : ∀ t : Str, (t ++ w).rdropWhile isWhitespace = t.rdropWhile isWhitespace := by
    intro t
    unfold List.rdropWhile
    have hrev : ∀ c ∈ w.reverse, isWhitespace c = true := fun c hc => h c (List.mem_reverse.mp hc)
    rw [List.reverse_append, List.dropWhile_append_of_pos hrev]
  unfold trim
  rw [List.dropWhile_append]
  split
  · rename_i hempty
    rw [hall, List.isEmpty_iff.mp hempty]
  · exact hback _

/-- A line is what is left of it without carriage returns at its end, and these. -/
theorem eq_chomp_append (line : Str) :
    ∃ w, line = chomp line ++ w ∧ ∀ c ∈ w, c = '\r' := by
  refine ⟨line.rtakeWhile (· == '\r'), List.rdropWhile_append_rtakeWhile.symm, ?_⟩
  intro c hc
  have hcr : (c == '\r') = true := List.mem_rtakeWhile_imp (p := (· == '\r')) hc
  exact eq_of_beq hcr

/-- Carriage returns at the end of a line do not change how it begins, up to white space. -/
theorem trim_takeWhile_chomp {p : Char → Bool} (hp : p '\r' = true) (line : Str) :
    trim ((chomp line).takeWhile p) = trim (line.takeWhile p) := by
  obtain ⟨w, hline, hw⟩ := eq_chomp_append line
  have hspace : ∀ c ∈ w, isWhitespace c = true := by
    intro c hc
    rw [hw c hc]
    rfl
  have hkept : ∀ c ∈ w, p c = true := by
    intro c hc
    rw [hw c hc, hp]
  conv_rhs => rw [hline]
  rw [List.takeWhile_append]
  split
  · rename_i hall
    have hself : (chomp line).takeWhile p = chomp line :=
      (List.takeWhile_prefix _).eq_of_length hall
    rw [hself, List.takeWhile_eq_self_iff.mpr hkept, trim_append_of_forall _ hspace]
  · rfl

end BuduWaf.Str
