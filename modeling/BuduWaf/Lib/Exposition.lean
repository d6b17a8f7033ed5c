import BuduWaf.Lib.Decimal
import BuduWaf.Lib.Split
import Mathlib.Data.List.Nodup

/-!
# Metrics as text

The text format in which a process exposes its metrics: lines that each end with a line feed, of
which some declare the help and the type of a metric and the others are samples.

* **`scrape`** reads a text. A type is declared once, before the samples of its metric; the help of
  a metric is declared once; other lines that begin with `#` are comments.
* **`expose`** writes families of one sample each.
* **`scrape_expose`**: what was written is read back, where the families are well formed and no two
  have one name.

The proof has a description of the text in its middle: the lines that a family is written in. The
text of all of them splits into these lines again, as none has a line feed within
(`endedLines_endLines`), and an induction over the families reads one after the other
(`lines_family`). It carries that what has been read so far says nothing about the names still to
come (`Fresh`), which is where distinct names are needed.

Scope: samples are whole numbers without labels and timestamps, which is what is written here. A
text with any of these is not read.
-/

namespace BuduWaf.Exposition

/-! ## Families -/

/-- The type of a metric, as the format declares it. -/
inductive Kind where
  | counter
  | gauge
  | histogram
  | summary
  | untyped
deriving DecidableEq

/-- The word a type is declared with. -/
def Kind.text : Kind → Str
  | counter => "counter"
  | gauge => "gauge"
  | histogram => "histogram"
  | summary => "summary"
  | untyped => "untyped"

/-- The type a word stands for, if it is the word of one. -/
def Kind.ofText (word : Str) : Option Kind :=
  [counter, gauge, histogram, summary, untyped].find? fun kind => kind.text == word

/-- A type is read back from the word it is declared with. -/
@[simp] theorem Kind.ofText_text (kind : Kind) : ofText kind.text = some kind := by
  cases kind <;> decide

/-- A metric with one sample, a whole number. -/
structure Family where
  /-- Its name. -/
  name : Str
  /-- What it measures, where that is told. -/
  help : Option Str
  /-- Its type. -/
  kind : Kind
  /-- The sample. -/
  value : Nat
deriving DecidableEq

/-- A character that a name may begin with. -/
def nameStart (c : Char) : Bool := c.isAlpha || c == '_' || c == ':'

/-- A text that may name a metric: letters, digits, `_` and `:`, and no digit in front. -/
def isName : Str → Bool
  | [] => false
  | c :: s => nameStart c && s.all fun d => nameStart d || d.isDigit

/-- A family that can be written: a proper name, and a help of one plain line. -/
structure Family.WellFormed (f : Family) : Prop where
  name : isName f.name = true
  help : ∀ text ∈ f.help, '\n' ∉ text ∧ '\\' ∉ text

/-! ## Writing -/

/-- The lines of a family: its help, if it has one, its type and its one sample. -/
def Family.lines (f : Family) : List Str :=
  (f.help.map fun text => ("# HELP " : Str) ++ f.name ++ ' ' :: text).toList ++
    [("# TYPE " : Str) ++ f.name ++ ' ' :: f.kind.text, f.name ++ ' ' :: Str.ofNat f.value]

/-- A text of lines, each of them with a line feed at its end. -/
def endLines (lines : List Str) : Str := lines.flatMap (· ++ ['\n'])

/-- The exposition of the families: their lines, one family after another. -/
def expose (fs : List Family) : Str := endLines (fs.flatMap Family.lines)

/-! ## Reading -/

/-- The lines of a text whose last line is ended too. -/
def endedLines : Str → Option (List Str)
  | [] => some []
  | c :: s =>
    if c = '\n' then (endedLines s).map ([] :: ·)
    else
      match endedLines s with
      | some (line :: lines) => some ((c :: line) :: lines)
      | _ => none

/-- What has been read of an exposition so far. -/
structure Reading where
  /-- The helps declared. -/
  helps : List (Str × Str)
  /-- The types declared. -/
  kinds : List (Str × Kind)
  /-- The samples, with what was declared of them. -/
  families : List Family

/-- The reader before the first line. -/
def Reading.start : Reading := ⟨[], [], []⟩

namespace Reading

/-- Read a help line, which declares the help of a name at most once. -/
def help (r : Reading) (rest : Str) : Option Reading :=
  match Str.splitOnce ' ' rest with
  | none => none
  | some (name, text) =>
    if (r.helps.lookup name).isSome then none else some { r with helps := (name, text) :: r.helps }

/-- Read a type line, which declares the type of a name at most once and before its samples. -/
def type (r : Reading) (rest : Str) : Option Reading :=
  match Str.splitOnce ' ' rest with
  | none => none
  | some (name, word) =>
    if (r.kinds.lookup name).isSome || r.families.any fun f => f.name == name then none
    else (Kind.ofText word).map fun kind => { r with kinds := (name, kind) :: r.kinds }

/-- Read a sample: the name of a metric and the digits of its value. -/
def sample (r : Reading) (line : Str) : Option Reading :=
  match Str.splitOnce ' ' line with
  | none => none
  | some (name, digits) =>
    if isName name then
      (Str.parseDigits digits).map fun value =>
        { r with families := r.families ++
            [⟨name, r.helps.lookup name, (r.kinds.lookup name).getD .untyped, value⟩] }
    else none

/-- Read one line. Empty lines and comments that declare nothing are passed over. -/
def line (r : Reading) (l : Str) : Option Reading :=
  match Str.stripPrefix ("# HELP " : Str) l, Str.stripPrefix ("# TYPE " : Str) l with
  | some rest, _ => r.help rest
  | none, some rest => r.type rest
  | none, none => if l.head? = none ∨ l.head? = some '#' then some r else r.sample l

end Reading

/-- The families of a text, if every line of it can be read and ends with a line feed. -/
def scrape (text : Str) : Option (List Family) :=
  ((endedLines text).bind fun lines => lines.foldlM Reading.line .start).map Reading.families

/-! ## What was written is read back -/

/-- The lines of a text that begins with an ended line are that line and the lines of the rest. -/
theorem endedLines_append {line : Str} (h : '\n' ∉ line) (rest : Str) :
    endedLines (line ++ '\n' :: rest) = (endedLines rest).map (line :: ·) := by
  induction line with
  | nil =>
      rw [List.nil_append, endedLines, if_pos rfl]
  | cons c line ih =>
      have hc : c ≠ '\n' := fun heq => h (heq ▸ List.mem_cons_self)
      have hline : '\n' ∉ line := fun hmem => h (List.mem_cons_of_mem c hmem)
      rw [List.cons_append, endedLines, if_neg hc, ih hline]
      cases endedLines rest <;> rfl

/-- Lines that are ended one after the other are read back. -/
theorem endedLines_endLines {lines : List Str} (h : ∀ line ∈ lines, '\n' ∉ line) :
    endedLines (endLines lines) = some lines := by
  induction lines with
  | nil => rfl
  | cons line lines ih =>
      obtain ⟨hline, hlines⟩ := List.forall_mem_cons.1 h
      have hsplit : endLines (line :: lines) = line ++ '\n' :: endLines lines := by
        simp [endLines]
      rw [hsplit, endedLines_append hline, ih hlines]
      rfl

/-- A name has neither blanks nor line ends, and is no comment. -/
theorem of_isName {name : Str} (h : isName name = true) :
    ' ' ∉ name ∧ '\n' ∉ name ∧ name.head? ≠ none ∧ name.head? ≠ some '#' := by
  cases name with
  | nil => simp [isName] at h
  | cons c s =>
      simp only [isName, Bool.and_eq_true, List.all_eq_true] at h
      obtain ⟨hc, hs⟩ := h
      have hno : ∀ d : Char, (nameStart d || d.isDigit) = false → d ∉ c :: s := by
        intro d hd hmem
        obtain rfl | hmem := List.mem_cons.1 hmem
        · rw [hc, Bool.true_or] at hd
          cases hd
        · rw [hs d hmem] at hd
          cases hd
      refine ⟨hno ' ' (by decide), hno '\n' (by decide), by simp, ?_⟩
      intro heq
      apply hno '#' (by decide)
      rw [List.head?_cons, Option.some.injEq] at heq
      rw [heq]
      exact List.mem_cons_self

/-- The word of a type has no line feed. -/
theorem Kind.text_free (kind : Kind) : '\n' ∉ kind.text := by cases kind <;> decide

/-- The lines of a family have no line ends within. -/
theorem Family.WellFormed.lines_free {f : Family} (h : f.WellFormed) :
    ∀ line ∈ f.lines, '\n' ∉ line := by
  obtain ⟨-, hname, -, -⟩ := of_isName h.name
  have hdigits : '\n' ∉ Str.ofNat f.value := by
    intro hmem
    exact absurd (Str.isDigit_of_mem_ofNat hmem) (by decide)
  intro line hline
  obtain hline | hline := List.mem_append.1 hline
  · obtain ⟨text, htext, rfl⟩ := Option.map_eq_some_iff.1 (Option.mem_toList.1 hline)
    have := (h.help text htext).1
    simp [hname, this]
  · obtain rfl | rfl : line = _ ∨ line = _ := by simpa using hline
    · simp [hname, f.kind.text_free]
    · simp [hname, hdigits]

namespace Reading

variable {r : Reading} {f : Family}

/-- Nothing has been read about the name. -/
def Fresh (r : Reading) (name : Str) : Prop :=
  r.helps.lookup name = none ∧ r.kinds.lookup name = none ∧ ∀ f ∈ r.families, f.name ≠ name

/-- The `HELP` line of a family that is new to the reading adds its help text. -/
theorem line_help (hf : f.WellFormed) (hfresh : r.Fresh f.name) (text : Str) :
    r.line (("# HELP " : Str) ++ f.name ++ ' ' :: text) =
      some { r with helps := (f.name, text) :: r.helps } := by
  have hsplit := Str.splitOnce_append (of_isName hf.name).1 text
  rw [line, List.append_assoc, Str.stripPrefix_append]
  simp only [help, hsplit, hfresh.1]
  rfl

/-- The `TYPE` line of a family that has neither a type nor a sample yet adds its type. -/
theorem line_type (hf : f.WellFormed) (hkinds : r.kinds.lookup f.name = none)
    (hnew : ∀ g ∈ r.families, g.name ≠ f.name) :
    r.line (("# TYPE " : Str) ++ f.name ++ ' ' :: f.kind.text) =
      some { r with kinds := (f.name, f.kind) :: r.kinds } := by
  have hsplit := Str.splitOnce_append (of_isName hf.name).1 f.kind.text
  have hhelp : Str.stripPrefix ("# HELP " : Str)
      (("# TYPE " : Str) ++ (f.name ++ ' ' :: f.kind.text)) = none := rfl
  have hany : (r.families.any fun g => g.name == f.name) = false := by
    simpa using hnew
  rw [line, List.append_assoc, hhelp, Str.stripPrefix_append]
  simp [type, hsplit, hkinds, hany]

/-- The sample of a family whose type and help were declared adds the family. -/
theorem line_sample (hf : f.WellFormed) :
    r.line (f.name ++ ' ' :: Str.ofNat f.value) =
      some { r with families := r.families ++
        [⟨f.name, r.helps.lookup f.name, (r.kinds.lookup f.name).getD .untyped, f.value⟩] } := by
  obtain ⟨hblank, -, hne, hcomment⟩ := of_isName hf.name
  obtain ⟨c, s, hname⟩ : ∃ c s, f.name = c :: s := by
    cases hname : f.name with
    | nil => simp [hname] at hne
    | cons c s => exact ⟨c, s, rfl⟩
  have hc : c ≠ '#' := by simpa [hname] using hcomment
  have hsplit := Str.splitOnce_append hblank (Str.ofNat f.value)
  have hnot : ∀ p : Str, p.head? = some '#' →
      Str.stripPrefix p (f.name ++ ' ' :: Str.ofNat f.value) = none := by
    intro p hp
    cases p with
    | nil => cases hp
    | cons d p =>
        obtain rfl : d = '#' := by simpa using hp
        rw [hname]
        simp [Str.stripPrefix, Ne.symm hc]
  rw [line, hnot _ rfl, hnot _ rfl]
  have hhead : (f.name ++ ' ' :: Str.ofNat f.value).head? = some c := by rw [hname]; rfl
  simp only [hhead]
  rw [if_neg (by simpa using hc)]
  simp only [sample, hsplit, hf.name, if_true, Str.parseDigits_ofNat]
  rfl

/-- **A family that was written is read.** -/
theorem lines_family (hf : f.WellFormed) (hfresh : r.Fresh f.name) :
    ∃ helps kinds, f.lines.foldlM line r = some ⟨helps, kinds, r.families ++ [f]⟩ ∧
      (∀ name, name ≠ f.name → helps.lookup name = r.helps.lookup name) ∧
      ∀ name, name ≠ f.name → kinds.lookup name = r.kinds.lookup name := by
  obtain ⟨hhelps, hkinds, hnew⟩ := hfresh
  have hother : ∀ {α : Type} (entries : List (Str × α)) (a : α) (name : Str), name ≠ f.name →
      ((f.name, a) :: entries).lookup name = entries.lookup name := by
    intro α entries a name hname
    rw [List.lookup_cons, beq_false_of_ne hname]
  cases hhelp : f.help with
  | none =>
      refine ⟨r.helps, (f.name, f.kind) :: r.kinds, ?_, fun _ _ => rfl, hother _ _⟩
      have hlines : f.lines = [("# TYPE " : Str) ++ f.name ++ ' ' :: f.kind.text,
          f.name ++ ' ' :: Str.ofNat f.value] := by
        simp [Family.lines, hhelp]
      rw [hlines, List.foldlM_cons, line_type hf hkinds hnew, Option.bind_eq_bind, Option.bind_some,
        List.foldlM_cons, line_sample hf]
      simp [hhelps, ← hhelp]
  | some text =>
      refine ⟨(f.name, text) :: r.helps, (f.name, f.kind) :: r.kinds, ?_, hother _ _, hother _ _⟩
      have hlines : f.lines = [("# HELP " : Str) ++ f.name ++ ' ' :: text,
          ("# TYPE " : Str) ++ f.name ++ ' ' :: f.kind.text,
          f.name ++ ' ' :: Str.ofNat f.value] := by
        simp [Family.lines, hhelp]
      rw [hlines, List.foldlM_cons, line_help hf ⟨hhelps, hkinds, hnew⟩, Option.bind_eq_bind,
        Option.bind_some, List.foldlM_cons]
      rw [line_type (r := { r with helps := (f.name, text) :: r.helps }) hf hkinds hnew,
        Option.bind_eq_bind, Option.bind_some, List.foldlM_cons, line_sample hf]
      simp [← hhelp]

end Reading

/-- Line by line, the families of an exposition are read back in order, behind those read before. -/
theorem foldlM_families {fs : List Family} (hwell : ∀ f ∈ fs, f.WellFormed)
    (hnames : (fs.map Family.name).Nodup) {r : Reading} (hfresh : ∀ f ∈ fs, r.Fresh f.name) :
    ((fs.flatMap Family.lines).foldlM Reading.line r).map Reading.families =
      some (r.families ++ fs) := by
  induction fs generalizing r with
  | nil => simp
  | cons f fs ih =>
      obtain ⟨hf, hfs⟩ := List.forall_mem_cons.1 hwell
      obtain ⟨hfirst, hrest⟩ := List.forall_mem_cons.1 hfresh
      rw [List.map_cons, List.nodup_cons] at hnames
      obtain ⟨hname, hnames⟩ := hnames
      obtain ⟨helps, kinds, hread, hhelps, hkinds⟩ := Reading.lines_family hf hfirst
      have hlater : ∀ g ∈ fs, Reading.Fresh ⟨helps, kinds, r.families ++ [f]⟩ g.name := by
        intro g hg
        have hne : g.name ≠ f.name := fun heq => hname (heq ▸ List.mem_map_of_mem hg)
        obtain ⟨hfreshHelps, hfreshKinds, hfreshNames⟩ := hrest g hg
        refine ⟨(hhelps _ hne).trans hfreshHelps, (hkinds _ hne).trans hfreshKinds, ?_⟩
        intro other hother
        obtain hother | hother := List.mem_append.1 hother
        · exact hfreshNames other hother
        · rw [List.mem_singleton.1 hother]
          exact hne.symm
      rw [List.flatMap_cons, List.foldlM_append, hread, Option.bind_eq_bind, Option.bind_some,
        ih hfs hnames hlater]
      simp

/-- **What was written is read back**: the families of their own exposition, if they are well-formed
and no two of them have the same name. -/
theorem scrape_expose {fs : List Family} (hwell : ∀ f ∈ fs, f.WellFormed)
    (hnames : (fs.map Family.name).Nodup) : scrape (expose fs) = some fs := by
  have hfree : ∀ line ∈ fs.flatMap Family.lines, '\n' ∉ line := by
    intro line hline
    obtain ⟨f, hf, hline⟩ := List.mem_flatMap.1 hline
    exact (hwell f hf).lines_free line hline
  have hstart : ∀ f ∈ fs, Reading.start.Fresh f.name := by
    intro f _
    exact ⟨rfl, rfl, fun g hg => absurd hg List.not_mem_nil⟩
  have hread := foldlM_families hwell hnames hstart
  unfold scrape expose
  rw [endedLines_endLines hfree, Option.bind_some, hread]
  rfl

end BuduWaf.Exposition
