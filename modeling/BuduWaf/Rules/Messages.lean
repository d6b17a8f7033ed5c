import BuduWaf.Lib.Lines
import BuduWaf.Lib.Split
import BuduWaf.Rules.Chains
import BuduWaf.Rules.Quoting

/-!
# `budu-rules`: the text of an imported message

An action list stands between double quotes, and a message in it between single ones. The word
reader keeps the escape of a single quote as it is written; the action reader takes every single
quote for the end of a span, escaped or not, and drops it.

* **`messageLine`**: a rule that denies with some message.
* **`convert_messageLine`**: the report on it.
* **`quote_notMem_action`**: no value of an action has a single quote.
* **`fragment_read`**: what stands behind `',` in a message is read as actions.
* **`message_kept_iff`**: the rule is emitted with its message, and no part of the message is an
  action, if and only if the message has no single quote.

The line passes two readers, and each is followed over the text with an induction. The word reader
takes a double-quoted word to its end, and an escape in it stays as it is written
(`tokenizeFrom_escapeQuotes`). The action reader toggles at every single quote and drops it
(`splitActionsFrom_quoted`, `quote_notMem_action`). So a message with a quote is never a value
again, and what stands behind the quote is outside of it, where a comma ends the action.
-/

namespace BuduWaf.Rules.Modsec

/-! ## The line -/

/-- A text with each single quote escaped. -/
def escapeQuotes (m : Str) : Str := m.flatMap fun c => if c = '\'' then ['\\', '\''] else [c]

/-- The actions of the line, with the message quoted and its quotes escaped. -/
def messageActions (m : Str) : Str :=
  ("id:1,phase:2,deny,msg:'" : Str) ++ (escapeQuotes m ++ ['\''])

/-- A rule that denies with a message, on one line. -/
def messageLine (m : Str) : Str :=
  ("SecRule ARGS \"@rx x\" \"" : Str) ++ (messageActions m ++ ['"'])

/-- What a message may be: one line, without double quotes and backslashes, and without white
space at its ends. -/
structure MessageText (m : Str) : Prop where
  /-- Double quotes. -/
  quote : '"' ∉ m
  /-- Backslashes. -/
  backslash : '\\' ∉ m
  /-- Line breaks. -/
  line : '\n' ∉ m
  /-- White space. -/
  trimmed : Str.trim m = m

/-- The actions that rule over what a rule does. -/
def rulingActions : List Str := ["allow", "pass", "chain", "t", "setvar", "status"]

/-- The actions on a line, as the import reads them. -/
def actionsOf (line : Str) : List (Str × Option Str) :=
  (((directiveArg line "SecRule").bind fun arg => (tokenize arg)[2]?).map splitActions).getD []

/-- The line gives one rule, which blocks with the message, and no action on it rules over what
that rule does. -/
structure MessageKept (X : Crates) (m : Str) : Prop where
  /-- The rule. -/
  rule : ∃ e, (convert X (messageLine m)).rules = [e] ∧ e.action = ("block" : Str) ∧ e.msg = m
  /-- The actions. -/
  actions : ∀ action ∈ actionsOf (messageLine m), action.1 ∉ rulingActions

/-! ## Escaping -/

/-- A quote is written with a backslash. -/
theorem escapeQuotes_quote (m : Str) : escapeQuotes ('\'' :: m) = '\\' :: '\'' :: escapeQuotes m :=
  rfl

/-- Any other character is written as it is. -/
theorem escapeQuotes_cons {c : Char} (h : c ≠ '\'') (m : Str) :
    escapeQuotes (c :: m) = c :: escapeQuotes m := by
  unfold escapeQuotes
  rw [List.flatMap_cons, if_neg h]
  rfl

/-- Two texts in a row are written in a row. -/
theorem escapeQuotes_append (a b : Str) :
    escapeQuotes (a ++ b) = escapeQuotes a ++ escapeQuotes b :=
  List.flatMap_append

/-- A text without single quotes is written as it is. -/
theorem escapeQuotes_of_notMem {m : Str} (h : '\'' ∉ m) : escapeQuotes m = m := by
  induction m with
  | nil => rfl
  | cons c m ih =>
      rw [escapeQuotes_cons (Ne.symm (List.ne_of_not_mem_cons h)),
        ih (List.not_mem_of_not_mem_cons h)]

/-- Escaping brings in no other characters. -/
theorem notMem_escapeQuotes {c : Char} {m : Str} (hquote : c ≠ '\'') (hbackslash : c ≠ '\\')
    (h : c ∉ m) : c ∉ escapeQuotes m := by
  intro hmem
  obtain ⟨d, hd, hc⟩ := List.mem_flatMap.mp hmem
  by_cases hdquote : d = '\''
  · rw [if_pos hdquote] at hc
    simp [hquote, hbackslash] at hc
  · rw [if_neg hdquote, List.mem_singleton] at hc
    exact h (hc ▸ hd)

/-! ## Words -/

/-- **An escaped single quote** stays escaped between double quotes. -/
theorem tokenizeFrom_escapeQuotes {m : Str} (hquote : '"' ∉ m) (hbackslash : '\\' ∉ m)
    (cur rest : Str) :
    tokenizeFrom (.quoted '"' cur) (escapeQuotes m ++ rest) =
      tokenizeFrom (.quoted '"' ((escapeQuotes m).reverse ++ cur)) rest := by
  induction m generalizing cur with
  | nil => rfl
  | cons c m ih =>
      have hrest := ih (List.not_mem_of_not_mem_cons hquote)
        (List.not_mem_of_not_mem_cons hbackslash)
      by_cases hc : c = '\''
      · subst hc
        rw [escapeQuotes_quote, List.cons_append, List.cons_append,
          tokenizeFrom_quoted_escape (by decide), hrest]
        simp
      · rw [escapeQuotes_cons hc, List.cons_append,
          tokenizeFrom_quoted_cons (Ne.symm (List.ne_of_not_mem_cons hbackslash))
            (Ne.symm (List.ne_of_not_mem_cons hquote)), hrest]
        simp

/-- The line has three words: the variable, the operator and the actions with the message. -/
theorem tokenize_messageLine {m : Str} (hquote : '"' ∉ m) (hbackslash : '\\' ∉ m) :
    tokenize (("ARGS \"@rx x\" \"" : Str) ++ (messageActions m ++ ['"'])) =
      [("ARGS" : Str), "@rx x", messageActions m] := by
  have hfront : tokenize (("ARGS \"@rx x\" \"" : Str) ++ (messageActions m ++ ['"'])) =
      ("ARGS" : Str) :: ("@rx x" : Str) ::
        tokenizeFrom (.quoted '"' ("id:1,phase:2,deny,msg:'" : Str).reverse)
          (escapeQuotes m ++ ['\'', '"']) := by
    unfold messageActions
    rw [List.append_assoc, List.append_assoc]
    rfl
  have hback : ∀ cur, tokenizeFrom (.quoted '"' cur) ['\'', '"'] = [cur.reverse ++ ['\'']] := by
    intro cur
    have hread : tokenizeFrom (.quoted '"' cur) ['\'', '"'] = [('\'' :: cur).reverse] := rfl
    rw [hread, List.reverse_cons]
  rw [hfront, tokenizeFrom_escapeQuotes hquote hbackslash, hback]
  unfold messageActions
  rw [List.reverse_append, List.reverse_reverse, List.reverse_reverse, List.append_assoc]

/-! ## The report -/

/-- What follows the name of a directive and a blank is its argument. -/
theorem directiveArg_blank {name rest : Str} (h : Str.trimStart rest = rest) :
    directiveArg (name ++ ' ' :: rest) name = some rest := by
  have htrim : Str.trimStart (' ' :: rest) = rest := by
    unfold Str.trimStart at h ⊢
    rw [List.dropWhile_cons_of_pos (show Str.isWhitespace ' ' = true from rfl), h]
  have hblank : String.utf8EncodeChar ' ' = [0x20] := rfl
  unfold directiveArg
  rw [Str.stripPrefix_append, Option.bind_some]
  simp only
  rw [htrim, if_neg]
  unfold Str.byteLen
  rw [Str.utf8_cons, hblank]
  simp

/-- The actions that stand before the message. -/
def leadingActions : List (Str × Option Str) :=
  [("id", some "1"), ("phase", some "2"), ("deny", none)]

/-- The rule on the line, with some actions. -/
def messageRule (actions : List (Str × Option Str)) : ParsedRule :=
  actions.foldl ParsedRule.addAction
    { vars := [⟨"ARGS", none, false, false⟩], opName := "rx", opArg := "x", negate := false }

/-- Behind `SecRule` the line has the variable, the operator and the actions. -/
theorem directiveArg_messageLine (m : Str) : directiveArg (messageLine m) "SecRule" =
    some (("ARGS \"@rx x\" \"" : Str) ++ (messageActions m ++ ['"'])) :=
  directiveArg_blank rfl

section line

variable {m : Str} (hm : MessageText m)

include hm

/-- The line is not continued on another one. -/
theorem joinContinuations_messageLine : joinContinuations (messageLine m) = [messageLine m] := by
  have hlf : '\n' ∉ messageLine m := by
    intro h
    unfold messageLine messageActions at h
    rcases List.mem_append.mp h with h | h
    · exact absurd h (by decide)
    · rcases List.mem_append.mp h with h | h
      · rcases List.mem_append.mp h with h | h
        · exact absurd h (by decide)
        · rcases List.mem_append.mp h with h | h
          · exact notMem_escapeQuotes (by decide) (by decide) hm.line h
          · exact absurd h (by decide)
      · exact absurd h (by decide)
  have hlast : ∃ front, messageLine m = front ++ ['"'] :=
    ⟨_, (List.append_assoc _ _ _).symm⟩
  have hends : ∀ c, c ≠ '"' → Str.stripSuffix [c] (messageLine m) = none := by
    intro c hc
    obtain ⟨front, hfront⟩ := hlast
    rw [Option.eq_none_iff_forall_ne_some]
    intro r hr
    rw [Str.stripSuffix_eq_some_iff, hfront] at hr
    exact hc (List.cons.inj (List.append_inj_right' hr rfl)).1.symm
  have hne : messageLine m ≠ [] := by
    obtain ⟨front, hfront⟩ := hlast
    rw [hfront]
    simp
  unfold joinContinuations
  rw [Str.lines_of_notMem hne hlf]
  unfold joinContinuationsFrom
  rw [hends '\r' (by decide)]
  simp only [Option.getD_none]
  rw [hends '\\' (by decide)]
  rfl

/-- The actions that are read of the line are those its third word is split into. -/
theorem actionsOf_messageLine : actionsOf (messageLine m) = splitActions (messageActions m) := by
  unfold actionsOf
  rw [directiveArg_messageLine, Option.bind_some,
    tokenize_messageLine hm.quote hm.backslash]
  rfl

/-- **The report on the line** is that on its rule. -/
theorem convert_messageLine (X : Crates) : convert X (messageLine m) =
    blockReport X (messageRule (splitActions (messageActions m))) [] := by
  have htrim : Str.trim (messageLine m) = messageLine m := by
    refine Str.trim_of_ends ?_ ?_
    · intro c hc
      obtain rfl : 'S' = c := Option.some.inj hc
      rfl
    · intro c hc
      have hlast : (messageLine m).getLast? = some '"' := by
        unfold messageLine
        rw [← List.append_assoc]
        exact List.getLast?_concat
      rw [hlast] at hc
      obtain rfl := Option.some.inj hc
      rfl
  have hparsed : parseSecrule (("ARGS \"@rx x\" \"" : Str) ++ (messageActions m ++ ['"'])) =
      .ok (messageRule (splitActions (messageActions m))) := by
    unfold parseSecrule
    rw [tokenize_messageLine hm.quote hm.backslash]
    rfl
  have hsources : sourceRules (messageLine m) =
      [⟨.ok (messageRule (splitActions (messageActions m))), []⟩] := by
    unfold sourceRules
    have hfiller : isFiller (messageLine m) = false := rfl
    rw [joinContinuations_messageLine hm, sourceRulesFrom, htrim, hfiller,
      if_neg Bool.false_ne_true, directiveArg_messageLine, Option.map_some, hparsed]
    rfl
  have hnone : SourceRule.chained (messageRule (splitActions (messageActions m))) [] = [] := by
    unfold SourceRule.chained
    split <;> rfl
  rw [convert_eq, hsources, List.map_singleton]
  unfold SourceRule.report joinReports
  simp only [hnone]
  simp [ConvertReport.append, ConvertReport.empty]

end line

/-! ## Actions -/

/-- Between quotes every character but a quote is read as it is. -/
theorem splitActionsFrom_quoted {a : Str} (h : '\'' ∉ a) (buf rest : Str) :
    splitActionsFrom true buf (a ++ rest) = splitActionsFrom true (a.reverse ++ buf) rest := by
  induction a generalizing buf with
  | nil => rfl
  | cons c a ih =>
      rw [List.cons_append, splitActionsFrom, if_neg (Ne.symm (List.ne_of_not_mem_cons h)),
        if_neg (by simp), ih (List.not_mem_of_not_mem_cons h)]
      simp

/-- A quote at the end changes nothing. -/
theorem splitActionsFrom_quote (q : Bool) (buf s : Str) :
    splitActionsFrom q buf (s ++ ['\'']) = splitActionsFrom q buf s := by
  induction s generalizing q buf with
  | nil => rfl
  | cons c s ih =>
      simp only [List.cons_append, splitActionsFrom, ih]

/-- The actions before the message are read. -/
theorem splitActions_messageActions (m : Str) : splitActions (messageActions m) =
    leadingActions ++ splitActionsFrom true ("msg:" : Str).reverse (escapeQuotes m) := by
  have hfront : splitActions (messageActions m) = leadingActions ++
      splitActionsFrom true ("msg:" : Str).reverse (escapeQuotes m ++ ['\'']) := rfl
  rw [hfront, splitActionsFrom_quote]

/-- A message without single quotes is the value of its action. -/
theorem pushAction_msg {m : Str} (hquote : '\'' ∉ m) (htrim : Str.trim m = m) :
    pushAction (("msg:" : Str) ++ m) = [(("msg" : Str), some m)] := by
  have hwhole : Str.trim (("msg:" : Str) ++ m) = ("msg:" : Str) ++ m := by
    refine Str.trim_of_ends ?_ ?_
    · intro c hc
      obtain rfl : 'm' = c := Option.some.inj hc
      rfl
    · intro c hc
      rw [List.getLast?_append] at hc
      cases hlast : m.getLast? with
      | none =>
          rw [hlast] at hc
          obtain rfl : ':' = c := Option.some.inj hc
          rfl
      | some d =>
          rw [hlast] at hc
          obtain rfl : d = c := Option.some.inj hc
          exact Str.last_of_trim htrim d hlast
  have hcut : Str.splitOnce ':' (("msg:" : Str) ++ m) = some (("msg" : Str), m) :=
    Str.splitOnce_append (show ':' ∉ ("msg" : Str) by decide) m
  have hne : (("msg:" : Str) ++ m).isEmpty = false := rfl
  unfold pushAction
  dsimp only
  rw [hwhole, hne, if_neg Bool.false_ne_true, hcut]
  dsimp only
  rw [htrim, Str.trimMatches_of_notMem hquote]
  rfl

/-- No value of an action has a single quote. -/
theorem quote_notMem_pushAction {raw : Str} (h : '\'' ∉ raw) {action : Str × Option Str}
    (ha : action ∈ pushAction raw) : ∀ v ∈ action.2, '\'' ∉ v := by
  intro v hv hmem
  unfold pushAction at ha
  simp only at ha
  split at ha
  · cases ha
  · split at ha
    · rename_i k w hcut
      obtain rfl := List.mem_singleton.mp ha
      obtain rfl := Option.some.inj hv
      have hw := Str.mem_of_mem_trim (Str.mem_of_mem_trimMatches hmem)
      rw [Str.splitOnce_eq_some_iff] at hcut
      have htrim : '\'' ∈ Str.trim raw := by
        rw [hcut.1]
        exact List.mem_append_right _ (List.mem_cons_of_mem _ hw)
      exact h (Str.mem_of_mem_trim htrim)
    · obtain rfl := List.mem_singleton.mp ha
      cases hv

/-- **Every single quote is dropped**, so no value of an action has one. -/
theorem quote_notMem_action {q : Bool} {buf s : Str} (hbuf : '\'' ∉ buf)
    {action : Str × Option Str} (ha : action ∈ splitActionsFrom q buf s) :
    ∀ v ∈ action.2, '\'' ∉ v := by
  have hrev : ∀ {buf : Str}, '\'' ∉ buf → '\'' ∉ buf.reverse :=
    fun h hmem => h (List.mem_reverse.mp hmem)
  induction s generalizing q buf with
  | nil => exact quote_notMem_pushAction (hrev hbuf) ha
  | cons c s ih =>
      rw [splitActionsFrom] at ha
      by_cases hc : c = '\''
      · rw [if_pos hc] at ha
        exact ih hbuf ha
      · rw [if_neg hc] at ha
        by_cases hcomma : c = ',' ∧ q = false
        · rw [if_pos hcomma] at ha
          rcases List.mem_append.mp ha with ha | ha
          · exact quote_notMem_pushAction (hrev hbuf) ha
          · exact ih List.not_mem_nil ha
        · rw [if_neg hcomma] at ha
          refine ih ?_ ha
          intro hmem
          rcases List.mem_cons.mp hmem with heq | hmem
          · exact hc heq.symm
          · exact hbuf hmem

/-- **What stands behind `',` in a message** is read as actions of the rule. -/
theorem fragment_read {a b : Str} (ha : '\'' ∉ a) (hb : '\'' ∉ b) :
    splitActions (messageActions (a ++ '\'' :: ',' :: b)) =
      leadingActions ++ (pushAction (("msg:" : Str) ++ a ++ ['\\']) ++ splitActions b) := by
  have hescape : escapeQuotes (a ++ '\'' :: ',' :: b) = a ++ ['\\', '\'', ','] ++ b := by
    rw [escapeQuotes_append, escapeQuotes_of_notMem ha, escapeQuotes_quote,
      escapeQuotes_cons (by decide), escapeQuotes_of_notMem hb]
    simp
  have hspan : ∀ buf : Str, splitActionsFrom true buf (['\\', '\'', ','] ++ b) =
      pushAction ('\\' :: buf).reverse ++ splitActions b := fun buf => rfl
  rw [splitActions_messageActions, hescape, List.append_assoc, splitActionsFrom_quoted ha, hspan,
    List.reverse_cons, List.reverse_append, List.reverse_reverse, List.reverse_reverse]

/-! ## The message of a rule -/

/-- A transform leaves the message of a rule as it is. -/
@[simp] theorem addTransform_msg (rule : ParsedRule) (val : Option Str) :
    (rule.addTransform val).msg = rule.msg := by
  unfold ParsedRule.addTransform
  split
  · rfl
  · split <;> rfl

/-- An action sets the message to its value, or leaves it. -/
theorem addAction_msg (rule : ParsedRule) (action : Str × Option Str) :
    (rule.addAction action).msg = action.2.getD [] ∨
      (rule.addAction action).msg = rule.msg := by
  obtain ⟨key, val⟩ := action
  by_cases hkey : key = ("msg" : Str)
  · subst hkey
    exact Or.inl rfl
  · right
    have hif := @field_ite _ ParsedRule.msg rule.msg
    unfold ParsedRule.addAction
    dsimp only
    refine hif rfl <| hif rfl <| hif rfl <| hif rfl <| hif rfl <| hif ?_ ?_
    · cases val.bind fun v => Str.parseUInt 16 (Str.trim v) with
      | none => rfl
      | some status => rfl
    · rw [if_neg hkey]
      refine hif (addTransform_msg rule val) <| hif ?_ <| hif rfl rfl
      cases anomalyScore (val.getD []) with
      | none => rfl
      | some points => rfl

/-- Values without single quotes make no message with one. -/
theorem quote_notMem_msg {actions : List (Str × Option Str)}
    (h : ∀ action ∈ actions, ∀ v ∈ action.2, '\'' ∉ v) {rule : ParsedRule}
    (hrule : '\'' ∉ rule.msg) : '\'' ∉ (actions.foldl ParsedRule.addAction rule).msg := by
  induction actions generalizing rule with
  | nil => exact hrule
  | cons action actions ih =>
      refine ih (fun a ha => h a (List.mem_cons_of_mem _ ha)) ?_
      rcases addAction_msg rule action with hmsg | hmsg
      · rw [hmsg]
        cases hval : action.2 with
        | none => exact List.not_mem_nil
        | some v => exact h action List.mem_cons_self v hval
      · rw [hmsg]
        exact hrule

/-- A rule that is emitted has the message of its source. -/
theorem msg_of_mem_blockReport {X : Crates} {starter : ParsedRule} {chained : List ParsedRule}
    {e : EmittedRule} (he : e ∈ (blockReport X starter chained).rules) : e.msg = starter.msg := by
  obtain ⟨rules, hbuilt, hmem⟩ := mem_blockReport_iff.mp he
  obtain ⟨-, conds, -, hassembled⟩ := buildRules_ok_iff.mp hbuilt
  obtain ⟨id, heq⟩ := emitRule_of_assembleRules hassembled e hmem
  rw [heq]
  rfl

/-- A message without single quotes is kept. -/
theorem messageKept_of_notMem (X : Crates) {m : Str} (hm : MessageText m) (h : '\'' ∉ m) :
    MessageKept X m := by
  have hactions : splitActions (messageActions m) =
      leadingActions ++ [(("msg" : Str), some m)] := by
    have hspan := splitActionsFrom_quoted h ("msg:" : Str).reverse []
    have hread : splitActionsFrom true (m.reverse ++ ("msg:" : Str).reverse) [] =
        pushAction (m.reverse ++ ("msg:" : Str).reverse).reverse := rfl
    rw [List.append_nil] at hspan
    rw [splitActions_messageActions, escapeQuotes_of_notMem h, hspan, hread,
      List.reverse_append, List.reverse_reverse, List.reverse_reverse, pushAction_msg h hm.trimmed]
  constructor
  · refine ⟨⟨"crs-1", none, "block", some 403, m, 0,
      [⟨"args", none, "regex", some "x", false, []⟩]⟩, ?_, rfl, rfl⟩
    rw [convert_messageLine hm, hactions]
    rfl
  · intro action ha
    rw [actionsOf_messageLine hm, hactions] at ha
    rcases List.mem_append.mp ha with ha | ha
    · have hleading : ∀ action ∈ leadingActions, action.1 ∉ rulingActions := by decide
      exact hleading action ha
    · obtain rfl := List.mem_singleton.mp ha
      show ("msg" : Str) ∉ rulingActions
      decide

/-- **The message of an imported rule is kept, and no part of it read as an action**, if and only
if it has no single quote. What stands behind a quote with a comma is read as actions of the
rule. -/
theorem message_kept_iff (X : Crates) {m : Str} (hm : MessageText m) :
    (MessageKept X m ↔ '\'' ∉ m) ∧
      ∀ a b, '\'' ∉ a → '\'' ∉ b → m = a ++ '\'' :: ',' :: b →
        splitActions (messageActions m) =
          leadingActions ++ (pushAction (("msg:" : Str) ++ a ++ ['\\']) ++ splitActions b) := by
  refine ⟨⟨?_, messageKept_of_notMem X hm⟩, ?_⟩
  · intro h hquote
    obtain ⟨e, hrules, -, hmsg⟩ := h.rule
    rw [convert_messageLine hm] at hrules
    have he := msg_of_mem_blockReport (hrules ▸ List.mem_singleton_self e)
    have hnone : '\'' ∉ (messageRule (splitActions (messageActions m))).msg :=
      quote_notMem_msg (fun action ha => quote_notMem_action List.not_mem_nil ha) List.not_mem_nil
    rw [← he, hmsg] at hnone
    exact hnone hquote
  · rintro a b ha hb rfl
    exact fragment_read ha hb

/-- A message without quotes of its own, with a comma and a colon. -/
theorem listed_message_kept :
    MessageKept (.plain .none .none) "SQL: union, select" ∧ '\'' ∉ ("SQL: union, select" : Str) :=
  have hm : MessageText "SQL: union, select" :=
    ⟨by decide, by decide, by decide, by decide⟩
  ⟨(message_kept_iff _ hm).1.mpr (by decide), by decide⟩

/-- A message that turns the rule into one that lets every request pass. -/
theorem quoted_allow_read : MessageText "don't, allow" ∧
    (convert (.plain .none .none) (messageLine "don't, allow")).rules =
      [⟨"crs-1", none, "allow", none, "don\\t", 0,
        [⟨"args", none, "regex", some "x", false, []⟩]⟩] ∧
    ¬ ∀ m, MessageText m → MessageKept (.plain .none .none) m := by
  have hm : MessageText "don't, allow" := ⟨by decide, by decide, by decide, by decide⟩
  have hrules : (convert (.plain .none .none) (messageLine "don't, allow")).rules =
      [⟨"crs-1", none, "allow", none, "don\\t", 0,
        [⟨"args", none, "regex", some "x", false, []⟩]⟩] := by
    decide +kernel
  refine ⟨hm, hrules, ?_⟩
  intro h
  obtain ⟨e, he, haction, -⟩ := (h _ hm).rule
  rw [hrules] at he
  rw [← (List.cons.inj he).1] at haction
  exact absurd haction (by decide)

end BuduWaf.Rules.Modsec
