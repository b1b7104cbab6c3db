import HtmlWriter.Proofs.Gaps

/-! What calls add to a document whose sink takes everything. Calls about the layout add
blanks, and the other calls that write at a place add some text; whether they succeed or fail,
nothing else becomes different but what is remembered of raw text. -/

namespace HtmlWriter
open Writing
variable {α β : Type}

/-- An action that adds nothing but characters of a kind, however it ends. -/
def Appends (kind : Char → Prop) (action : Writing α) : Prop :=
  ∀ ⦃document⦄, document.Unlimited → ∃ text : String,
    (∀ c ∈ text.toList, kind c) ∧ finalState action document = document.wrote text

namespace Appends
variable {kind : Char → Prop}

theorem of_same {action : Writing α} (same : ∀ document, finalState action document = document) :
    Appends kind action :=
  fun document _ => ⟨"", nofun, (same document).trans document.wrote_empty.symm⟩

theorem pure (value : α) : Appends kind (pure value : Writing α) := of_same fun _ => rfl

theorem throw (error : Error) : Appends kind (throw error : Writing α) := of_same fun _ => rfl

theorem get : Appends kind (get : Writing Document) := of_same fun _ => rfl

theorem ofExcept (verdict : Except Error α) :
    Appends kind (MonadExcept.ofExcept verdict : Writing α) := by
  cases verdict with
  | ok value => exact .pure value
  | error error => exact .throw error

theorem bind {first : Writing α} {next : α → Writing β} (started : Appends kind first)
    (rest : ∀ value, Appends kind (next value)) : Appends kind (first >>= next) := by
  intro document unlimited
  obtain ⟨before, fits, ended⟩ := started unlimited
  rw [finalState] at ended
  cases ran : first.run document with
  | ok value middle =>
    rw [ran] at ended
    obtain rfl : middle = document.wrote before := ended
    obtain ⟨after, also, final⟩ := rest value (unlimited.wrote before)
    refine ⟨before ++ after, ?_, ?_⟩
    · rw [String.toList_append, List.forall_mem_append]
      exact ⟨fits, also⟩
    · rw [finalState_bind_ok ran, final, Document.wrote_wrote]
  | error error middle =>
    rw [ran] at ended
    exact ⟨before, fits, by rw [finalState_bind_error ran]; exact ended⟩

theorem ite {condition : Prop} [Decidable condition] {yes no : Writing α}
    (first : Appends kind yes) (other : Appends kind no) :
    Appends kind (if condition then yes else no) := by
  split
  · exact first
  · exact other

theorem write {text : String} (fits : ∀ c ∈ text.toList, kind c) : Appends kind (write text) := by
  intro document unlimited
  exact ⟨text, fits, by rw [finalState, run_write unlimited]⟩

theorem indentUnits (fits : kind Format.indentUnit) (count : Nat) :
    Appends kind (indentUnits count) := by
  refine .bind (of_same fun _ => rfl) fun _ => .ite (.write fun c member => ?_) (.pure _)
  rw [String.toList_ofList] at member
  exact List.eq_of_mem_replicate member ▸ fits

end Appends

theorem Prints.appends {kind : Char → Prop} {offset? : Option Int64} {action : Writing α}
    (prints : Prints kind offset? action) : Appends kind action := by
  induction prints with
  | write fits => exact .write fits
  | pure value => exact .pure value
  | throw accepts => exact .throw _
  | indent asked fits blind => exact .bind .get fun _ => .ite (.indentUnits fits _) (.pure _)
  | read blind rest ih => exact .bind .get ih
  | bind started rest ihStarted ihRest => exact .bind ihStarted ihRest

theorem Writing.comment_appends (text : String) : Appends (fun _ => True) (comment text) := by
  have written : Appends (fun _ => True)
        (indentFresh 0 >>= fun _ => write ("<!--" ++ text ++ "-->")) :=
    .bind (indentFresh_prints 0).widen.appends fun _ => .write fun _ _ => trivial
  exact .bind (refuseInTag_prints _).widen.appends fun _ =>
    .ite (.bind (.throw _) fun _ => written) written

theorem StartTag.add_appends (start : StartTag) (requested : Attribute) :
    Appends (fun _ => True) (start.add requested) := by
  refine .bind .get fun document => .bind (.ofExcept _) fun emission => ?_
  obtain ⟨claimed, next, -, same, prints⟩ := start.emit_eq emission
  rw [same]
  exact .bind (.ofExcept _) fun start => (prints start).appends

end HtmlWriter
