import HtmlWriter.Proofs.Parts

/-! Normal forms of trees: what is left of a tree when its texts are joined, and its start
tags have the attributes that they are always written with. -/

namespace HtmlWriter

/-- The attributes that a start tag has of its own. -/
def Tag.ownAttributes (tag : Tag) (serialization : Serialization) : List (String × String) :=
  if tag.isNamespaced serialization then [("xmlns", xhtmlNamespace)] else []

/-- A text in front of children joins the text that these begin with. -/
def joinText (content : String) : List Node → List Node
  | .text next :: rest => .text (content ++ next) :: rest
  | nodes => if content.isEmpty then nodes else .text content :: nodes

theorem joinText_empty (nodes : List Node) : joinText "" nodes = nodes := by
  unfold joinText
  split
  · rw [String.empty_append]
  · rfl

theorem joinText_joinText (first second : String) (nodes : List Node) :
    joinText first (joinText second nodes) = joinText (first ++ second) nodes := by
  by_cases isEmpty : second = ""
  · rw [isEmpty, joinText_empty, String.append_empty]
  · have filled : second.isEmpty = false := by simpa [String.isEmpty_iff] using isEmpty
    have both : (first ++ second).isEmpty = false := by
      simpa [String.isEmpty_iff] using fun _ => isEmpty
    cases nodes with
    | nil => simp [joinText, filled, both]
    | cons node rest => cases node <;> simp [joinText, filled, both, String.append_assoc]

namespace Node

def join : Node → List Node → List Node
  | text content, nodes => joinText content nodes
  | node, nodes => node :: nodes

mutual

/-- A piece of markup as it is read: a start tag has its own attributes first. -/
def normal (serialization : Serialization) : Node → Node
  | .text content => .text content
  | .comment content => .comment content
  | .element tag attributes children =>
      .element tag (tag.ownAttributes serialization ++ attributes) (normalAll serialization children)

/-- Pieces of markup as they are read: texts side by side are joined, and an empty text is
none. -/
def normalAll (serialization : Serialization) : List Node → List Node
  | [] => []
  | node :: rest => (normal serialization node).join (normalAll serialization rest)

end

def isText : Node → Bool
  | text _ => true
  | comment _ | element .. => false

mutual

/-- Whether no text in a piece of markup is empty or directly follows another. -/
def isMerged : Node → Bool
  | .text content => !content.isEmpty
  | .comment _ => true
  | .element _ _ children => isMergedAll children

def isMergedAll : List Node → Bool
  | [] => true
  | node :: rest => isMerged node && !(node.isText && rest.head?.any isText) && isMergedAll rest

end

theorem isMergedAll_singleton {node : Node} (merged : node.isMerged = true) :
    isMergedAll [node] = true := by
  simp [isMergedAll, merged]

private theorem isText_normal (serialization : Serialization) (node : Node) :
    (normal serialization node).isText = node.isText := by
  cases node <;> simp only [normal, isText]

theorem joinText_of_apart {content : String} {nodes : List Node}
    (filled : content.isEmpty = false) (apart : nodes.head?.any isText = false) :
    joinText content nodes = .text content :: nodes := by
  cases nodes with
  | nil => simp [joinText, filled]
  | cons node rest =>
    cases node with
    | text next => cases apart
    | comment | element => simp [joinText, filled]

theorem normalAll_of_isMergedAll (serialization : Serialization) {nodes : List Node}
    (merged : isMergedAll nodes = true) :
    normalAll serialization nodes = nodes.map (normal serialization) := by
  induction nodes with
  | nil => rw [normalAll, List.map_nil]
  | cons node rest ih =>
    simp only [isMergedAll, Bool.and_eq_true, Bool.not_eq_true'] at merged
    obtain ⟨⟨own, apart⟩, later⟩ := merged
    rw [normalAll, ih later, List.map_cons]
    cases node with
    | comment | element =>
      rw [normal]
      rfl
    | text content =>
      rw [isMerged, Bool.not_eq_true'] at own
      rw [normal, join]
      refine joinText_of_apart own ?_
      rw [List.head?_map, Option.any_map]
      simp only [isText_normal]
      exact apart

mutual

private theorem eq_of_normal {serialization : Serialization} {first second : Node}
    (merged : first.isMerged = true) (others : second.isMerged = true)
    (same : normal serialization first = normal serialization second) : first = second :=
  match first with
  | .text content => by
    cases second <;> simp only [normal] at same <;> cases same
    rfl
  | .comment content => by
    cases second <;> simp only [normal] at same <;> cases same
    rfl
  | .element tag attributes children => by
    cases second <;> simp only [normal, Node.element.injEq, reduceCtorEq] at same
    obtain ⟨rfl, attributed, inside⟩ := same
    rw [isMerged] at merged others
    rw [List.append_cancel_left attributed, eq_of_normalAll merged others inside]
termination_by structural first

theorem eq_of_normalAll {serialization : Serialization} {firsts seconds : List Node}
    (merged : isMergedAll firsts = true) (others : isMergedAll seconds = true)
    (same : normalAll serialization firsts = normalAll serialization seconds) :
    firsts = seconds := by
  have apart := same
  rw [normalAll_of_isMergedAll serialization merged, normalAll_of_isMergedAll serialization others]
    at apart
  match firsts with
  | [] =>
    cases seconds with
    | nil => rfl
    | cons second seconds => cases apart
  | first :: firsts =>
    cases seconds with
    | nil => cases apart
    | cons second seconds =>
      simp only [isMergedAll, Bool.and_eq_true] at merged others
      rw [List.map_cons, List.map_cons, List.cons.injEq,
        ← normalAll_of_isMergedAll serialization merged.2,
        ← normalAll_of_isMergedAll serialization others.2] at apart
      rw [eq_of_normal merged.1.1 others.1.1 apart.1, eq_of_normalAll merged.2 others.2 apart.2]
termination_by structural firsts

end

end Node
end HtmlWriter
