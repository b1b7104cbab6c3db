import HtmlWriter.Proofs.Rendering

/-! Formatting never changes meaning. The formatted output has the tokens of the plain one,
with gaps between them, and a gap stands neither in a verbatim element nor around a text
alone. -/

namespace HtmlWriter
namespace Node

mutual

private theorem map_token_tokens (parent : Option Tag) (first second : Bool) (node : Node) :
    (node.tokens parent first).map Placed.token = (node.tokens parent second).map Placed.token :=
  match node with
  | .text content => by
    simp only [tokens]
    split <;> rfl
  | .comment content => by
    simp only [tokens, List.map_cons, List.map_nil]
  | .element tag attributes children => by
    simp only [tokens, List.map_cons]
    split
    · rfl
    · simp only [List.map_append, List.map_cons, List.map_nil]
      rw [map_token_tokensAll]
termination_by structural node

theorem map_token_tokensAll (parent : Option Tag) (first second : Bool) (nodes : List Node) :
    (tokensAll parent first nodes).map Placed.token =
      (tokensAll parent second nodes).map Placed.token :=
  match nodes with
  | [] => by simp only [tokensAll]
  | node :: rest => by
    simp only [tokensAll, List.map_append]
    rw [map_token_tokens parent first second node, map_token_tokensAll parent first second rest]
termination_by structural nodes

end

private theorem tight_closed {inside : List Placed} (tight : ∀ placed ∈ inside, placed.tight = true)
    (tag : Tag) : ∀ placed ∈ inside ++ [⟨.endTag tag, true⟩], placed.tight = true := by
  intro placed member
  rw [List.mem_append, List.mem_singleton] at member
  rcases member with content | rfl
  · exact tight placed content
  · rfl

mutual

private theorem tight_of_tokens (parent : Option Tag) (node : Node) :
    ∀ placed ∈ node.tokens parent true, placed.tight = true :=
  match node with
  | .text content => by
    simp only [tokens]
    split <;> simp
  | .comment content => by simp [tokens]
  | .element tag attributes children => by
    simp only [tokens, Bool.true_or, List.forall_mem_cons, true_and]
    split
    · simp
    · exact tight_closed (tight_of_tokensAll (some tag) children) tag
termination_by structural node

private theorem tight_of_tokensAll (parent : Option Tag) (nodes : List Node) :
    ∀ placed ∈ tokensAll parent true nodes, placed.tight = true :=
  match nodes with
  | [] => by simp [tokensAll]
  | node :: rest => by
    have first := tight_of_tokens parent node
    have later := tight_of_tokensAll parent rest
    intro placed member
    rw [tokensAll, List.mem_append] at member
    exact member.elim (first placed) (later placed)
termination_by structural nodes

end

end Node

def Node.plain (encoder : Encoder) (serialization : Serialization) (node : Node) : String :=
  String.join ((node.tokens none false).map (·.token.markup encoder serialization))

private theorem spell_of_tight (encoder : Encoder) (serialization : Serialization)
    {laid : List Spaced}
    (tight : ∀ spaced ∈ laid, spaced.tight = true) :
    spell encoder serialization laid =
      String.join (laid.map (·.token.markup encoder serialization)) := by
  unfold spell
  congr 1
  apply List.map_congr_left
  intro spaced member
  rw [spaced.tied (tight spaced member), Gap.text_empty, String.empty_append]

theorem Node.spell_eq_plain (encoder : Encoder) (serialization : Serialization)
    {laid : List Spaced} {node : Node}
    (same : laid.map Spaced.toPlaced = node.tokens none true) :
    spell encoder serialization laid = node.plain encoder serialization := by
  have tight : ∀ spaced ∈ laid, spaced.tight = true := by
    intro spaced member
    have inside : spaced.toPlaced ∈ node.tokens none true := by
      rw [← same]
      exact List.mem_map_of_mem member
    exact tight_of_tokens none node _ inside
  have markups := congrArg (List.map (Token.markup encoder serialization))
    (map_token_tokens none true false node)
  rw [← same] at markups
  simp only [List.map_map, Function.comp_def] at markups
  rw [spell_of_tight _ _ tight, plain, markups]

/-- Without automatic newlines a tree is rendered as its tokens, and nothing else. -/
theorem Node.render_plain (parameters : Parameters) (plain : parameters.autoNewline = false)
    (node : Node) :
    node.render parameters =
      (node.check parameters.serialization parameters.doctype [] "").map fun _ =>
        utf8 (node.plain .markup parameters.serialization) := by
  have agrees := node.render_agrees parameters true fun _ => plain
  cases rendered : node.render parameters with
  | error error =>
    rw [rendered] at agrees
    rw [show node.check _ _ _ _ = _ from agrees]
    rfl
  | ok bytes =>
    rw [rendered] at agrees
    obtain ⟨passed, laid, last, same, spelled, closed⟩ := agrees
    rw [passed, spelled, closed rfl, Gap.text_empty, String.append_empty, spell_eq_plain _ _ same]
    rfl

/-- Formatting does not change whether a tree is rendered, or why not. It only puts gaps
before tokens, and after the last; and in an element whose layout is verbatim, or that has
no more than a text in it, no token after its start tag has a gap before it. -/
theorem formatting_keeps_meaning (parameters : Parameters) (indent : Bool) (node : Node) :
    (match node.render parameters with
      | .ok bytes =>
          node.render { parameters with autoNewline := false, indent } =
            .ok (utf8 (node.plain .markup parameters.serialization)) ∧
          ∃ (laid : List Spaced) (last : Gap), laid.map Spaced.toPlaced = node.tokens none false ∧
            bytes = utf8 (spell .markup parameters.serialization laid ++ last.text)
      | .error error =>
          node.render { parameters with autoNewline := false, indent } = .error error) ∧
    ∀ parent tight (tag : Tag) attributes children,
      tag.definition.layout = .verbatim ∨ Node.isRun children →
      ∀ placed ∈ ((Node.element tag attributes children).tokens parent tight).tail,
        placed.tight = true := by
  constructor
  · have agrees := node.render_agrees parameters false nofun
    have plain := node.render_plain { parameters with autoNewline := false, indent } rfl
    cases rendered : node.render parameters with
    | error error =>
      rw [rendered] at agrees
      dsimp only at agrees ⊢
      rw [plain, agrees]
      rfl
    | ok bytes =>
      rw [rendered] at agrees
      obtain ⟨passed, laid, last, same, spelled, -⟩ := agrees
      refine ⟨?_, laid, last, same, spelled⟩
      rw [plain, passed]
      rfl
  · intro parent tight tag attributes children sealed
    have inside : (tight || tag.definition.layout == .verbatim || Node.isRun children) = true := by
      rcases sealed with verbatim | alone
      · simp [verbatim]
      · simp [alone]
    rw [Node.tokens, inside, List.tail_cons]
    split
    · simp
    · exact Node.tight_closed (Node.tight_of_tokensAll (some tag) children) tag

/-- For instance, preformatted text in a division: it is on a line of its own, and nothing is put
into it. -/
theorem preformatted_keeps_meaning :
    let block : Node := .element .pre [] [.text "a", .element .em [] [.comment "b"]]
    let node : Node := .element .div [] [block]
    node.render .pretty = .ok (utf8 "<div>\n\t<pre>a<em><!--b--></em></pre>\n</div>\n") ∧
      node.render { Parameters.pretty with autoNewline := false, indent := true } =
        .ok (utf8 "<div><pre>a<em><!--b--></em></pre></div>") ∧
      ∀ placed ∈ (block.tokens (some .div) false).tail, placed.tight = true := by
  intro block node
  have formatted : (node.render .pretty).toOption =
      some (utf8 "<div>\n\t<pre>a<em><!--b--></em></pre>\n</div>\n") := by
    decide +kernel
  have plain : node.plain .markup .sgml = "<div><pre>a<em><!--b--></em></pre></div>" := by
    decide +kernel
  have tight := (formatting_keeps_meaning .pretty true node).2 (some .div) false .pre []
    [.text "a", .element .em [] [.comment "b"]] (.inl rfl)
  -- The rest depends on the tree only by what it is rendered as.
  clear_value node
  have renders := (formatting_keeps_meaning .pretty true node).1
  cases rendered : node.render .pretty with
  | error error =>
    rw [rendered] at formatted
    cases formatted
  | ok bytes =>
    rw [rendered] at formatted renders
    obtain ⟨compact, -⟩ := renders
    refine ⟨congrArg Except.ok (Option.some.inj formatted), ?_, tight⟩
    exact compact.trans (congrArg (fun text => Except.ok (utf8 text)) plain)

end HtmlWriter
