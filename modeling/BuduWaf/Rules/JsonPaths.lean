import BuduWaf.Plain
import BuduWaf.Rules.Fields
import Mathlib.Data.Char
import Mathlib.Data.List.Lex
import Mathlib.Data.List.Sort

/-!
# `budu-rules`: the parameters of a JSON document

* **Documents** are trees whose objects may repeat a name. `Json.value` is what `serde_json` keeps
  of one: the last member of each name, in the order of the map.
* **`leaves`**: the scalars of a document with their paths; `expectedArgs` names them by their
  dotted paths.
* **`json_args_iff`**: the parameters are these, one for each scalar, exactly if no scalar stands
  in a member that is overwritten and none stands deeper below an empty name at the root, whose
  dot the reader leaves out.

A document is what stands in the body, with repeated names and in the order it was written; a value
is what `serde_json` keeps of it. The reader is shown to give the scalars of the value
(`flattenJson_eq`), by induction over the tree with one case for objects and one for arrays, and
the scalars of the document are those of the value and the hidden ones (`leaves_perm`). Dots are
counted to tell a reader's path from the dotted one: it is the same, or is shorter
(`readerPath_spec`), so that lists of paths can agree only where none is shorter.
-/

namespace BuduWaf.Rules

/-! ## Documents and values -/

/-- Of the members with one name, the last. -/
def lastMembers {α : Type} : List (Str × α) → List (Str × α)
  | [] => []
  | (k, v) :: rest =>
    if k ∈ rest.map Prod.fst then lastMembers rest else (k, v) :: lastMembers rest

/-- Members in the order of a `BTreeMap`, by their names. -/
def sortMembers {α : Type} (members : List (Str × α)) : List (Str × α) :=
  members.insertionSort fun a b => a.1 ≤ b.1

mutual

/-- The `serde_json::Value` of a document. -/
def valueOf : Json → Json
  | .object members => .object (sortMembers (lastMembers (valueOfMembers members)))
  | .array items => .array (valueOfItems items)
  | .string s => .string s
  | .number text => .number text
  | .bool b => .bool b
  | .null => .null

/-- The values that the members of an object are read as. -/
def valueOfMembers : List (Str × Json) → List (Str × Json)
  | [] => []
  | (k, v) :: rest => (k, valueOf v) :: valueOfMembers rest

/-- The values that the items of an array are read as. -/
def valueOfItems : List Json → List Json
  | [] => []
  | v :: rest => valueOf v :: valueOfItems rest

end

/-! ## Leaves -/

/-- A scalar: the names and indices on the way to it, and its text. -/
abbrev Leaf := List Str × Str

/-- A leaf seen from one level further up. -/
def Leaf.under (name : Str) (leaf : Leaf) : Leaf := (name :: leaf.1, leaf.2)

mutual

/-- The scalars of a tree, each with the path to it. -/
def leaves : Json → List Leaf
  | .object members => leavesOfMembers members
  | .array items => leavesOfItems 0 items
  | .string s => [([], s)]
  | .number text => [([], text)]
  | .bool b => [([], if b then ("true" : Str) else ("false" : Str))]
  | .null => [([], [])]

/-- The scalars of the members of an object, each below the name of its member. -/
def leavesOfMembers : List (Str × Json) → List Leaf
  | [] => []
  | (k, v) :: rest => (leaves v).map (Leaf.under k) ++ leavesOfMembers rest

/-- The scalars of items from index `i` on. -/
def leavesOfItems (i : Nat) : List Json → List Leaf
  | [] => []
  | v :: rest => (leaves v).map (Leaf.under (Str.ofNat i)) ++ leavesOfItems (i + 1) rest

end

mutual

/-- The scalars in members that a later member of the same name overwrites. -/
def hidden : Json → List Leaf
  | .object members => hiddenOfMembers members
  | .array items => hiddenOfItems 0 items
  | .string _ | .number _ | .bool _ | .null => []

/-- The scalars of members that are hidden: below a name that a later member has too, or in a member
themselves. -/
def hiddenOfMembers : List (Str × Json) → List Leaf
  | [] => []
  | (k, v) :: rest =>
    (if k ∈ rest.map Prod.fst then leaves v else hidden v).map (Leaf.under k) ++
      hiddenOfMembers rest

/-- The hidden scalars of items from index `i` on. -/
def hiddenOfItems (i : Nat) : List Json → List Leaf
  | [] => []
  | v :: rest => (hidden v).map (Leaf.under (Str.ofNat i)) ++ hiddenOfItems (i + 1) rest

end

/-- A path with dots between its parts. -/
def dotted (path : List Str) : Str := Str.join ['.'] path

/-- One parameter for each scalar, named by its path. -/
def expectedArgs (doc : Json) : List (Str × Str) :=
  (leaves doc).map fun leaf => (dotted leaf.1, leaf.2)

/-! ## The reader's names -/

mutual

/-- The reader gives the scalars of the value, named by its own paths. -/
theorem flattenJson_eq (pre : Str) : (v : Json) →
    flattenJson pre v = (leaves v).map fun leaf => (leaf.1.foldl childPath pre, leaf.2)
  | .object members => by
      rw [flattenJson, leaves]
      exact flattenMembers_eq pre members
  | .array items => by
      rw [flattenJson, leaves]
      exact flattenItems_eq pre 0 items
  | .string _ => by rw [flattenJson, leaves]; rfl
  | .number _ => by rw [flattenJson, leaves]; rfl
  | .bool _ => by rw [flattenJson, leaves]; rfl
  | .null => by rw [flattenJson, leaves]; rfl

/-- The members of an object are flattened to their leaves, each under the path of its names. -/
theorem flattenMembers_eq (pre : Str) : (members : List (Str × Json)) →
    flattenMembers pre members =
      (leavesOfMembers members).map fun leaf => (leaf.1.foldl childPath pre, leaf.2)
  | [] => by rw [flattenMembers, leavesOfMembers]; rfl
  | (k, v) :: rest => by
      have hfirst := flattenJson_eq (childPath pre k) v
      have hrest := flattenMembers_eq pre rest
      rw [flattenMembers, leavesOfMembers, hfirst, hrest, List.map_append, List.map_map]
      rfl

/-- The items of an array are flattened to their leaves, each under the path of its index. -/
theorem flattenItems_eq (pre : Str) (i : Nat) : (items : List Json) →
    flattenItems pre i items =
      (leavesOfItems i items).map fun leaf => (leaf.1.foldl childPath pre, leaf.2)
  | [] => by rw [flattenItems, leavesOfItems]; rfl
  | v :: rest => by
      have hfirst := flattenJson_eq (childPath pre (Str.ofNat i)) v
      have hrest := flattenItems_eq pre (i + 1) rest
      rw [flattenItems, leavesOfItems, hfirst, hrest, List.map_append, List.map_map]
      rfl

end

/-- Below a name that is not empty, the reader's path is the dotted one. -/
theorem foldl_childPath {pre : Str} (hpre : pre ≠ []) (path : List Str) :
    path.foldl childPath pre = dotted (pre :: path) := by
  induction path generalizing pre with
  | nil => simp [dotted, Str.join]
  | cons name path ih =>
      have hchild : childPath pre name = pre ++ '.' :: name := by
        simp [childPath, hpre]
      have hne : pre ++ '.' :: name ≠ [] := by simp
      rw [List.foldl_cons, hchild, ih hne]
      cases path with
      | nil => simp [dotted, Str.join, List.intercalate_cons_cons]
      | cons next path => simp [dotted, Str.join, List.intercalate_cons_cons]

/-- A path that starts at the root with an empty name and goes on. -/
def StartsEmpty (path : List Str) : Prop := path.head? = some [] ∧ path.tail ≠ []

instance (path : List Str) : Decidable (StartsEmpty path) := inferInstanceAs (Decidable (_ ∧ _))

/-- The reader's path is the dotted one, or is shorter. -/
theorem readerPath_spec (path : List Str) :
    (¬ StartsEmpty path → path.foldl childPath [] = dotted path) ∧
      (StartsEmpty path → (path.foldl childPath []).length < (dotted path).length) ∧
      (path.foldl childPath []).length ≤ (dotted path).length := by
  induction path with
  | nil => simp [StartsEmpty, dotted, Str.join]
  | cons name path ih =>
      have hchild : childPath [] name = name := rfl
      rw [List.foldl_cons, hchild]
      by_cases hname : name = []
      · subst hname
        cases path with
        | nil => simp [StartsEmpty, dotted, Str.join]
        | cons next path =>
            have hdotted : dotted ([] :: next :: path) = '.' :: dotted (next :: path) := by
              simp [dotted, Str.join, List.intercalate_cons_cons]
            have hstarts : StartsEmpty ([] :: next :: path) := ⟨rfl, by simp⟩
            have hshort := ih.2.2
            rw [hdotted, List.length_cons]
            refine ⟨fun h => absurd hstarts h, ?_, ?_⟩
            · intro _
              omega
            · omega
      · have hsame := foldl_childPath hname path
        have hother : ¬ StartsEmpty (name :: path) := by
          intro h
          exact hname (Option.some.inj h.1)
        rw [hsame]
        exact ⟨fun _ => rfl, fun h => absurd h hother, Nat.le_refl _⟩

/-! ## What a value keeps -/

/-- The leaves of an object are those of its members, each under the member's name. -/
theorem leavesOfMembers_eq (members : List (Str × Json)) :
    leavesOfMembers members = members.flatMap fun m => (leaves m.2).map (Leaf.under m.1) := by
  induction members with
  | nil => rw [leavesOfMembers]; rfl
  | cons m members ih => rw [leavesOfMembers, ih, List.flatMap_cons]

/-- The order of the members is that of their scalars. -/
theorem leavesOfMembers_perm {members members' : List (Str × Json)} (h : members.Perm members') :
    (leavesOfMembers members).Perm (leavesOfMembers members') := by
  rw [leavesOfMembers_eq, leavesOfMembers_eq]
  exact h.flatMap_right _

/-- Reading the members of an object keeps their names. -/
theorem names_valueOfMembers (members : List (Str × Json)) :
    (valueOfMembers members).map Prod.fst = members.map Prod.fst := by
  induction members with
  | nil => rw [valueOfMembers]
  | cons m members ih => rw [valueOfMembers, List.map_cons, ih, List.map_cons]

mutual

/-- **The scalars of a document** are those of its value and the hidden ones. -/
theorem leaves_perm : (doc : Json) → (leaves doc).Perm (leaves (valueOf doc) ++ hidden doc)
  | .object members => by
      have hmembers := leavesOfMembers_last members
      have hsorted := leavesOfMembers_perm
        (List.perm_insertionSort (fun a b : Str × Json => a.1 ≤ b.1)
          (lastMembers (valueOfMembers members)))
      rw [leaves, valueOf, leaves, hidden]
      exact hmembers.trans (hsorted.symm.append_right _)
  | .array items => by
      rw [leaves, valueOf, leaves, hidden]
      exact leavesOfItems_perm 0 items
  | .string _ => by rw [valueOf, hidden, List.append_nil]
  | .number _ => by rw [valueOf, hidden, List.append_nil]
  | .bool _ => by rw [valueOf, hidden, List.append_nil]
  | .null => by rw [valueOf, hidden, List.append_nil]

/-- The leaves of an object are those of the last members of each name, and the hidden ones. -/
theorem leavesOfMembers_last : (members : List (Str × Json)) →
    (leavesOfMembers members).Perm
      (leavesOfMembers (lastMembers (valueOfMembers members)) ++ hiddenOfMembers members)
  | [] => by
      rw [leavesOfMembers, valueOfMembers, lastMembers, leavesOfMembers, hiddenOfMembers]
      exact .refl _
  | (k, v) :: rest => by
      have hvalue := leaves_perm v
      have hrest := leavesOfMembers_last rest
      rw [leavesOfMembers, valueOfMembers, lastMembers, hiddenOfMembers, names_valueOfMembers]
      by_cases hk : k ∈ rest.map Prod.fst
      · rw [if_pos hk, if_pos hk]
        exact (hrest.append_left _).trans (List.perm_append_comm_assoc _ _ _)
      · rw [if_neg hk, if_neg hk, leavesOfMembers, List.append_assoc]
        have hfirst := hvalue.map (Leaf.under k)
        rw [List.map_append] at hfirst
        have hboth := hfirst.append hrest
        rw [List.append_assoc] at hboth
        exact hboth.trans ((List.perm_append_comm_assoc _ _ _).append_left _)

/-- The leaves of an array are those of the items as they are read, and the hidden ones. -/
theorem leavesOfItems_perm (i : Nat) : (items : List Json) →
    (leavesOfItems i items).Perm (leavesOfItems i (valueOfItems items) ++ hiddenOfItems i items)
  | [] => by
      rw [leavesOfItems, valueOfItems, leavesOfItems, hiddenOfItems]
      exact .refl _
  | v :: rest => by
      have hvalue := leaves_perm v
      have hrest := leavesOfItems_perm (i + 1) rest
      rw [leavesOfItems, valueOfItems, hiddenOfItems, leavesOfItems, List.append_assoc]
      have hfirst := hvalue.map (Leaf.under (Str.ofNat i))
      rw [List.map_append] at hfirst
      have hboth := hfirst.append hrest
      rw [List.append_assoc] at hboth
      exact hboth.trans ((List.perm_append_comm_assoc _ _ _).append_left _)

end

/-! ## When every scalar is a parameter -/

/-- Terms that are bounded one by one have a bounded sum, and agree where the sums do. -/
theorem sum_le_and_eq {α : Type} {f g : α → Nat} {xs : List α} (hle : ∀ x ∈ xs, f x ≤ g x) :
    (xs.map f).sum ≤ (xs.map g).sum ∧
      ((xs.map f).sum = (xs.map g).sum → ∀ x ∈ xs, f x = g x) := by
  induction xs with
  | nil => simp
  | cons x xs ih =>
      obtain ⟨hfirst, hrest⟩ := List.forall_mem_cons.mp hle
      obtain ⟨hbound, hequal⟩ := ih hrest
      simp only [List.map_cons, List.sum_cons, List.forall_mem_cons]
      refine ⟨by omega, ?_⟩
      intro hsum
      exact ⟨by omega, hequal (by omega)⟩

variable (X : Crates)

/-- **When no JSON value is hidden or renamed.** For a document of which `serde_json` keeps its
value, the parameters are its scalars under their dotted paths, one for each, exactly if no
scalar stands in a member that a later one of its name overwrites, and none stands deeper below an
empty name at the root. -/
theorem json_args_iff (bytes : Bytes) (doc : Json)
    (hparse : X.jsonFromSlice bytes = some (valueOf doc)) :
    (parseJsonArgs X bytes).Perm (expectedArgs doc) ↔
      hidden doc = [] ∧ ∀ leaf ∈ leaves doc, ¬ StartsEmpty leaf.1 := by
  have hread : parseJsonArgs X bytes =
      (leaves (valueOf doc)).map fun leaf => (leaf.1.foldl childPath [], leaf.2) := by
    unfold parseJsonArgs
    rw [hparse]
    exact flattenJson_eq [] (valueOf doc)
  have hleaves := leaves_perm doc
  rw [hread, expectedArgs]
  constructor
  · intro h
    have hlength := h.length_eq
    have hcount := hleaves.length_eq
    simp only [List.length_map, List.length_append] at hlength hcount
    have hnone : hidden doc = [] := List.length_eq_zero_iff.mp (by omega)
    rw [hnone, List.append_nil] at hleaves
    -- the names of one and the same leaves have the same total length
    have hsame := h.trans (hleaves.map fun leaf => (dotted leaf.1, leaf.2))
    have hnames := (hsame.map fun arg => arg.1.length).sum_nat
    rw [List.map_map, List.map_map] at hnames
    have hbound : ∀ leaf ∈ leaves (valueOf doc),
        (leaf.1.foldl childPath []).length ≤ (dotted leaf.1).length :=
      fun leaf _ => (readerPath_spec leaf.1).2.2
    have hequal := (sum_le_and_eq hbound).2 hnames
    refine ⟨hnone, ?_⟩
    intro leaf hleaf hstarts
    have hshort := (readerPath_spec leaf.1).2.1 hstarts
    have hlengths := hequal leaf (hleaves.mem_iff.mp hleaf)
    omega
  · rintro ⟨hnone, hstarts⟩
    rw [hnone, List.append_nil] at hleaves
    have hnames : ((leaves (valueOf doc)).map fun leaf => (leaf.1.foldl childPath [], leaf.2)) =
        (leaves (valueOf doc)).map fun leaf => (dotted leaf.1, leaf.2) := by
      apply List.map_congr_left
      intro leaf hleaf
      have hpath := (readerPath_spec leaf.1).1 (hstarts leaf (hleaves.mem_iff.mpr hleaf))
      rw [hpath]
    rw [hnames]
    exact (hleaves.map _).symm

/-! ### An empty name and a repeated one -/

/-- A build that reads one body as one value, as `serde_json` does. -/
def readingBuild (bytes : Bytes) (doc : Json) : Crates :=
  .plain .none { Readers.none with json := fun b => if b = bytes then some (valueOf doc) else none }

/-- The build of the example reads the document from the bytes. -/
theorem jsonFromSlice_reading (bytes : Bytes) (doc : Json) :
    (readingBuild bytes doc).jsonFromSlice bytes = some (valueOf doc) := by
  show (if bytes = bytes then some (valueOf doc) else none) = some (valueOf doc)
  exact if_pos rfl

/-- `{"user": {"role": "admin"}, "tags": [null, 1]}`. -/
def userDoc : Json :=
  .object [("user", .object [("role", .string "admin")]), ("tags", .array [.null, .number "1"])]

/-- The text of this document. -/
def userBytes : Bytes :=
  Str.utf8 "\x7b\"user\":\x7b\"role\":\"admin\"\x7d,\"tags\":[null,1]\x7d"

/-- The document of the example is read as expected, as nothing of it is hidden or begins with an
empty name. -/
theorem user_args_read :
    (parseJsonArgs (readingBuild userBytes userDoc) userBytes).Perm (expectedArgs userDoc) ↔
      hidden userDoc = [] ∧ ∀ leaf ∈ leaves userDoc, ¬ StartsEmpty leaf.1 :=
  json_args_iff (readingBuild userBytes userDoc) userBytes userDoc
    (jsonFromSlice_reading userBytes userDoc)

/-- The document `{"": {"a": 1}}`, with an empty name. -/
def emptyNameDoc : Json := .object [([], .object [("a", .number "1")])]

/-- The document `{"a": 1, "a": 2}`, with a name that stands twice. -/
def repeatedDoc : Json := .object [("a", .number "1"), ("a", .number "2")]

/-- The text of the document with an empty name. -/
def emptyNameBytes : Bytes := Str.utf8 "\x7b\"\":\x7b\"a\":1\x7d\x7d"

/-- The text of the document with a repeated name. -/
def repeatedBytes : Bytes := Str.utf8 "\x7b\"a\":1,\"a\":2\x7d"

/-- The scalar below an empty name loses a dot, and of a repeated name one scalar is lost. -/
theorem empty_and_repeated_names :
    parseJsonArgs (readingBuild emptyNameBytes emptyNameDoc) emptyNameBytes =
        [(("a" : Str), ("1" : Str))] ∧
      ¬ (parseJsonArgs (readingBuild emptyNameBytes emptyNameDoc) emptyNameBytes).Perm
        (expectedArgs emptyNameDoc) ∧
      parseJsonArgs (readingBuild repeatedBytes repeatedDoc) repeatedBytes =
        [(("a" : Str), ("2" : Str))] ∧
      ¬ (parseJsonArgs (readingBuild repeatedBytes repeatedDoc) repeatedBytes).Perm
        (expectedArgs repeatedDoc) := by
  decide +kernel

end BuduWaf.Rules
