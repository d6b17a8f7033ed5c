import BuduWaf.Rules.Modsec

/-!
# `budu-rules`: quoted words of a directive

* **`Piece`**: what a quoted word is made of: a plain character, the quote itself, or an escape
  that is kept for the patterns.
* **`tokenizeFrom_written`**: inside a span the reader takes the pieces one by one.
* **`tokenize_writeTokens`**: words written between quotes and set apart by white space are read
  back as they are, empty ones included.

Words are made of pieces and not given as texts, because not every text can be written between
quotes: an unescaped backslash before the quote would change what is read. The reader is a fold with
a state (between words, within a span of either quote, within a bare word), and each lemma about it
says what one piece, one gap or one quote does to that state.
-/

namespace BuduWaf.Rules.Modsec

/-! ## Writing -/

/-- A piece of a word that stands between `quote`s. -/
inductive Piece (quote : Char) where
  | plain (c : Char) (hbackslash : c ≠ '\\') (hquote : c ≠ quote)
  | quoteChar
  | escape (c : Char) (hquote : c ≠ quote)

/-- The white space between two words, which is not empty. -/
structure Gap where
  /-- The characters. -/
  run : Str
  /-- There is at least one. -/
  nonempty : run ≠ []
  /-- They are all white. -/
  white : ∀ c ∈ run, Str.isWhitespace c = true

section write

variable {quote : Char}

/-- What a piece of a quoted word stands for. -/
def Piece.value : Piece quote → Str
  | .plain c _ _ => [c]
  | .quoteChar => [quote]
  | .escape c _ => ['\\', c]

/-- How it is written: only the quote needs a backslash. -/
def Piece.written : Piece quote → Str
  | .plain c _ _ => [c]
  | .quoteChar => ['\\', quote]
  | .escape c _ => ['\\', c]

/-- The word that pieces make, as it is read. -/
def tokenValue (token : List (Piece quote)) : Str := token.flatMap Piece.value

/-- The word as it is written between quotes. -/
def writeToken (token : List (Piece quote)) : Str :=
  quote :: (token.flatMap Piece.written ++ [quote])

/-- Words between quotes, the `n`-th and the next of them set apart by `gap n`. -/
def writeTokens (gap : Nat → Gap) : List (List (Piece quote)) → Str
  | [] => []
  | [token] => writeToken token
  | token :: next :: tokens =>
    writeToken token ++ (gap 0).run ++ writeTokens (fun n => gap (n + 1)) (next :: tokens)

end write

/-! ## Reading, character by character -/

/-- White space between words is passed over. -/
theorem tokenizeFrom_white {c : Char} (h : Str.isWhitespace c = true) (rest : Str) :
    tokenizeFrom .between (c :: rest) = tokenizeFrom .between rest := by
  rw [tokenizeFrom, if_pos h]

/-- A character that is neither the quote nor a backslash is read as it is. -/
theorem tokenizeFrom_quoted_cons {quote c : Char} (hbackslash : c ≠ '\\') (hquote : c ≠ quote)
    (cur rest : Str) :
    tokenizeFrom (.quoted quote cur) (c :: rest) =
      tokenizeFrom (.quoted quote (c :: cur)) rest := by
  rw [tokenizeFrom.eq_def]
  split <;> simp_all

/-- Between quotes, an escaped quote is read as a quote. -/
theorem tokenizeFrom_quoted_escapeQuote (quote : Char) (cur rest : Str) :
    tokenizeFrom (.quoted quote cur) ('\\' :: quote :: rest) =
      tokenizeFrom (.quoted quote (quote :: cur)) rest := by
  rw [tokenizeFrom, if_pos rfl]

/-- In a quoted token an escape of another character is kept with its backslash. -/
theorem tokenizeFrom_quoted_escape {quote c : Char} (hquote : c ≠ quote) (cur rest : Str) :
    tokenizeFrom (.quoted quote cur) ('\\' :: c :: rest) =
      tokenizeFrom (.quoted quote (c :: '\\' :: cur)) rest := by
  rw [tokenizeFrom, if_neg hquote]

/-- The characters that open a span, and close the one they opened. -/
def IsQuote (c : Char) : Prop := c = '"' ∨ c = '\''

section quote

variable {quote : Char} (hquote : IsQuote quote)
include hquote

/-- Between tokens, a quote opens a quoted word. -/
theorem tokenizeFrom_open (rest : Str) :
    tokenizeFrom .between (quote :: rest) = tokenizeFrom (.quoted quote []) rest := by
  have hvisible : ¬Str.isWhitespace quote = true := by
    rcases hquote with rfl | rfl <;> decide
  have hopens : quote = '"' ∨ quote = '\'' := hquote
  rw [tokenizeFrom, if_neg hvisible, if_pos hopens]

/-- In a quoted token the same quote closes it. -/
theorem tokenizeFrom_close (cur rest : Str) :
    tokenizeFrom (.quoted quote cur) (quote :: rest) =
      cur.reverse :: tokenizeFrom .between rest := by
  have hbackslash : quote ≠ '\\' := by
    rcases hquote with rfl | rfl <;> decide
  rw [tokenizeFrom.eq_def]
  split <;> simp_all

end quote

/-! ## Reading what was written -/

/-- One piece is read to what it stands for. -/
theorem tokenizeFrom_piece {quote : Char} (p : Piece quote) (cur rest : Str) :
    tokenizeFrom (.quoted quote cur) (p.written ++ rest) =
      tokenizeFrom (.quoted quote (p.value.reverse ++ cur)) rest := by
  match p with
  | .plain c hbackslash hquote => exact tokenizeFrom_quoted_cons hbackslash hquote cur rest
  | .quoteChar => exact tokenizeFrom_quoted_escapeQuote quote cur rest
  | .escape c hquote => exact tokenizeFrom_quoted_escape hquote cur rest

/-- **The pieces of a span are read one after the other.** -/
theorem tokenizeFrom_written {quote : Char} (token : List (Piece quote)) (cur rest : Str) :
    tokenizeFrom (.quoted quote cur) (token.flatMap Piece.written ++ rest) =
      tokenizeFrom (.quoted quote ((tokenValue token).reverse ++ cur)) rest := by
  induction token generalizing cur with
  | nil => rfl
  | cons p token ih =>
      unfold tokenValue at ih ⊢
      rw [List.flatMap_cons, List.append_assoc, tokenizeFrom_piece, ih, List.flatMap_cons,
        List.reverse_append, List.append_assoc]

/-- A run of white space is passed over. -/
theorem tokenizeFrom_run {run : Str} (h : ∀ c ∈ run, Str.isWhitespace c = true) (rest : Str) :
    tokenizeFrom .between (run ++ rest) = tokenizeFrom .between rest := by
  induction run with
  | nil => rfl
  | cons c run ih =>
      rw [List.cons_append, tokenizeFrom_white (h c List.mem_cons_self)]
      exact ih fun d hd => h d (List.mem_cons_of_mem c hd)

/-- A quoted word is read whole, up to the quote that closes it. -/
theorem tokenizeFrom_writeToken {quote : Char} (hquote : IsQuote quote)
    (token : List (Piece quote)) (rest : Str) :
    tokenizeFrom .between (writeToken token ++ rest) =
      tokenValue token :: tokenizeFrom .between rest := by
  unfold writeToken
  rw [List.cons_append, tokenizeFrom_open hquote, List.append_assoc, tokenizeFrom_written,
    List.singleton_append, tokenizeFrom_close hquote, List.append_nil, List.reverse_reverse]

/-- Words between quotes of either kind are read back. -/
theorem tokenize_write {quote : Char} (hquote : IsQuote quote) (gap : Nat → Gap)
    (tokens : List (List (Piece quote))) :
    tokenize (writeTokens gap tokens) = tokens.map tokenValue := by
  unfold tokenize
  induction gap, tokens using writeTokens.induct with
  | case1 => rfl
  | case2 gap token =>
      have hread := tokenizeFrom_writeToken hquote token []
      rw [List.append_nil] at hread
      exact hread
  | case3 gap token next tokens ih =>
      rw [writeTokens, List.append_assoc, tokenizeFrom_writeToken hquote,
        tokenizeFrom_run (gap 0).white, ih]
      rfl

/-- How wide the gaps are does not matter to a rule. -/
theorem parseSecrule_writeTokens {quote : Char} (hquote : IsQuote quote) (gap gap' : Nat → Gap)
    (tokens : List (List (Piece quote))) :
    parseSecrule (writeTokens gap tokens) = parseSecrule (writeTokens gap' tokens) := by
  unfold parseSecrule
  rw [tokenize_write hquote, tokenize_write hquote]

/-- **The word reader undoes double quoting.** Words made of pieces, written between double
quotes with a backslash before each double quote of theirs and set apart by white space, are read
back in their order, whatever backslashes they have and whether or not they are empty. So a rule
reads the same however wide the gaps are. -/
theorem tokenize_writeTokens (gap : Nat → Gap) (tokens : List (List (Piece '"'))) :
    tokenize (writeTokens gap tokens) = tokens.map tokenValue ∧
      ∀ gap', parseSecrule (writeTokens gap tokens) = parseSecrule (writeTokens gap' tokens) :=
  ⟨tokenize_write (.inl rfl) gap tokens,
    fun gap' => parseSecrule_writeTokens (.inl rfl) gap gap' tokens⟩

example : tokenize ("\"\" \"\\\\\"  \"\\\"\"" : Str) = [[], ['\\', '\\'], ['"']] := by
  decide +kernel

end BuduWaf.Rules.Modsec
