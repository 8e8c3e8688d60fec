import DsaBroker.DsaToAkkaCoder

/-!
# Actor selections

How Akka reads the text of a selection: an empty element is skipped, an element with `*` or
`?` stands for every child whose name fits it, `..` is the parent, and any other element is the
name of a child.  An actor is known by the names on the way from the root guardian to it.
-/

namespace DsaBroker

inductive SelectionElement where
  | childName (name : Str)
  | childPattern (pattern : Str)
  | parent
deriving DecidableEq, Repr

def star : UInt16 := 42

def parentElement : Str := str ".."

def selectionElement (element : Str) : SelectionElement :=
  if questionMark ∈ element ∨ star ∈ element then .childPattern element
  else if element = parentElement then .parent
  else .childName element

abbrev ActorSelection := List SelectionElement

/-- `system.actorSelection(path)`, for an absolute path. -/
def actorSelection (path : Str) : ActorSelection := (segments path).map selectionElement

/-- A pattern is a regular expression in which `*` is `.*` and `?` is `.`; a name of an actor
has no line terminator. -/
def fitsPattern : Str → Str → Bool
  | [], name => name.isEmpty
  | c :: pattern, name =>
      if c = star then name.tails.any (fitsPattern pattern)
      else
        match name with
        | [] => false
        | d :: rest => (c = questionMark || c = d) && fitsPattern pattern rest

/-- The names from the root guardian to an actor. -/
abbrev ActorNames := List Str

/-- The actors that a selection denotes, from the actor `current`, where `actors` exist. -/
def Denotes (actors : ActorNames → Prop) : ActorSelection → ActorNames → ActorNames → Prop
  | [], current, actor => actor = current
  | .childName name :: rest, current, actor =>
      actors (current ++ [name]) ∧ Denotes actors rest (current ++ [name]) actor
  | .childPattern pattern :: rest, current, actor =>
      ∃ name, fitsPattern pattern name = true ∧ actors (current ++ [name]) ∧
        Denotes actors rest (current ++ [name]) actor
  | .parent :: rest, current, actor => Denotes actors rest current.dropLast actor

/-- A selection by names denotes the actor that they lead to, and no other. -/
theorem eq_of_denotes_names {actors : ActorNames → Prop} {names current actor : ActorNames}
    (h : Denotes actors (names.map SelectionElement.childName) current actor) :
    actor = current ++ names := by
  induction names generalizing current with
  | nil =>
    rw [List.append_nil]
    exact h
  | cons name names ih =>
    rw [ih h.2, List.append_assoc, List.singleton_append]

/-- An element that is no operator. -/
def IsLiteral (element : Str) : Prop :=
  questionMark ∉ element ∧ star ∉ element ∧ element ≠ parentElement

instance (element : Str) : Decidable (IsLiteral element) :=
  inferInstanceAs (Decidable (_ ∧ _ ∧ _))

theorem selectionElement_eq_childName {element name : Str} :
    selectionElement element = .childName name ↔ IsLiteral element ∧ element = name := by
  unfold selectionElement IsLiteral
  split_ifs with hpattern hparent
  · simp only [false_iff]
    tauto
  · simp [hparent]
  · simp only [SelectionElement.childName.injEq]
    tauto

theorem map_selectionElement_eq_names {elements names : List Str} :
    elements.map selectionElement = names.map SelectionElement.childName ↔
      elements = names ∧ ∀ element ∈ elements, IsLiteral element := by
  induction elements generalizing names with
  | nil => cases names <;> simp
  | cons element elements ih =>
    cases names with
    | nil => simp
    | cons name names =>
      rw [List.map_cons, List.map_cons, List.cons.injEq, ih, selectionElement_eq_childName]
      simp only [List.cons.injEq, List.forall_mem_cons]
      tauto

end DsaBroker
