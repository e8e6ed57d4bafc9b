import CanonicalIdl.Text.Blank

/-!
# Applications in type expressions

A type expression such as `HashMap<String, Vec<u8>>` applies a name to arguments, and
the inside of a tuple is a list of expressions between commas.  Cutting such a text up
never fails: a list of arguments that is not closed loses its last argument, and what
follows a closed list is left out.

Main results:

- Theorem `ofText_of_no_angle`: a text without `<` is a name without arguments.
- Theorem `commaItems_ne_nil`: a text has at least one item.
-/

namespace CanonicalIdl

open Text

/-- Round and square brackets that open a group. -/
def opensGroup (c : Char) : Bool :=
  c == '(' || c == '['

/-- Round and square brackets that close a group. -/
def closesGroup (c : Char) : Bool :=
  c == ')' || c == ']'

/-- A name applied to arguments, all of them text. -/
structure Application where
  name : List Char
  arguments : List (List Char)
  deriving Repr, DecidableEq

namespace Application

/-- The arguments in the text behind the first `<`.  Besides that bracket `angles` angle
brackets and `groups` round and square brackets are open, and `argument` holds the
current argument, its last character first.  A comma separates arguments where no other
bracket is open.  A group that is closed too often stays closed. -/
def scanArguments (angles groups : Nat) (argument : List Char) : List Char → List (List Char)
  | [] => []
  | c :: rest =>
    if c == '<' then scanArguments (angles + 1) groups (c :: argument) rest
    else if c == '>' then
      match angles with
      | 0 => [trim argument.reverse]
      | angles + 1 => scanArguments angles groups (c :: argument) rest
    else if c == ',' && angles == 0 && groups == 0 then
      trim argument.reverse :: scanArguments angles groups [] rest
    else if opensGroup c then scanArguments angles (groups + 1) (c :: argument) rest
    else if closesGroup c then scanArguments angles (groups - 1) (c :: argument) rest
    else scanArguments angles groups (c :: argument) rest

/-- The text in front of the first `<`. -/
def front (text : List Char) : List Char :=
  text.takeWhile (· != '<')

/-- The text behind the first `<`. -/
def behind (text : List Char) : List Char :=
  (text.dropWhile (· != '<')).drop 1

/-- Cut a type expression into its name and its arguments. -/
def ofText (text : List Char) : Application where
  name := trim (front text)
  arguments := scanArguments 0 0 [] (behind text)

/-- A text without `<` is a name without arguments. -/
theorem ofText_of_no_angle {text : List Char} (h : ∀ c ∈ text, c ≠ '<') :
    ofText text = ⟨trim text, []⟩ := by
  have htake : front text = text := by
    induction text with
    | nil => rfl
    | cons c rest ih =>
      have hc : c ≠ '<' := h c (by simp)
      have ih := ih fun d hd => h d (List.mem_cons_of_mem c hd)
      simp only [front] at ih
      simp [front, hc, ih]
  have hdrop : behind text = [] := by
    have hsplit := List.takeWhile_append_dropWhile (p := (· != '<')) (l := text)
    have hlen := congrArg List.length hsplit
    rw [show text.takeWhile (· != '<') = text from htake] at hlen
    have hnil : text.dropWhile (· != '<') = [] := by
      simpa using hlen
    simp [behind, hnil]
  simp [ofText, htake, hdrop, scanArguments]

end Application

/-- The items of a text between its outer commas, where `depth` brackets of any kind are
open and `item` holds the current item, its last character first. -/
def scanCommaItems (depth : Nat) (item : List Char) : List Char → List (List Char)
  | [] => [trim item.reverse]
  | c :: rest =>
    if c == '<' || opensGroup c then scanCommaItems (depth + 1) (c :: item) rest
    else if c == '>' || closesGroup c then scanCommaItems (depth - 1) (c :: item) rest
    else if c == ',' && depth == 0 then trim item.reverse :: scanCommaItems depth [] rest
    else scanCommaItems depth (c :: item) rest

/-- Cut a text at the commas that stand in no brackets.  Brackets of all kinds count
together, and a bracket closed too often stays closed. -/
def commaItems (text : List Char) : List (List Char) :=
  scanCommaItems 0 [] text

theorem scanCommaItems_ne_nil (depth : Nat) (item text : List Char) :
    scanCommaItems depth item text ≠ [] := by
  induction text generalizing depth item with
  | nil => simp [scanCommaItems]
  | cons c rest ih =>
    unfold scanCommaItems
    split
    · exact ih _ _
    · split
      · exact ih _ _
      · split
        · simp
        · exact ih _ _

/-- A text has at least one item. -/
theorem commaItems_ne_nil (text : List Char) : commaItems text ≠ [] :=
  scanCommaItems_ne_nil 0 [] text

end CanonicalIdl
