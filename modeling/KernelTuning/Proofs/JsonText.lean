import KernelTuning.Json.Reader
import KernelTuning.Proofs.JsonRecords

/-!
# Texts of JSON values

The tokens of a value make up the value again, wherever in an array or object it stands.
Together with the tokens of its text this gives the value back from the text, in every
layout.

Main statement: `parse?_write`.
-/

namespace KernelTuning.Json

/-! ## Reading tokens -/

namespace State

/-- The tokens lead from one state to another. -/
def Reads (first : State) (tokens : List Token) (last : State) : Prop :=
  tokens.foldlM step first = some last

theorem Reads.refl (state : State) : Reads state [] state :=
  rfl

theorem Reads.step {first middle last : State} {token : Token} {tokens : List Token}
    (taken : first.step token = some middle) (reads : Reads middle tokens last) :
    Reads first (token :: tokens) last := by
  rw [Reads, List.foldlM_cons, taken]
  exact reads

theorem Reads.trans {first middle last : State} {before after : List Token}
    (start : Reads first before middle) (next : Reads middle after last) :
    Reads first (before ++ after) last := by
  unfold Reads at start next ⊢
  rw [List.foldlM_append, start]
  exact next

/-- Wherever a value may stand, its tokens complete it. -/
def ReadsBack (value : Json) : Prop :=
  ∀ stack, Reads (.beforeValue stack) value.tokens (.afterValue value stack)

/-- The first item of an array stands where the array could also be closed. -/
private theorem Reads.firstItem {stack : List Frame} {token : Token} {tokens : List Token}
    {last : State}
    (opens : token ≠ .closeArray)
    (reads : Reads (.beforeValue (.items [] :: stack)) (token :: tokens) last) :
    Reads (.beforeFirstItem stack) (token :: tokens) last := by
  have same : State.step (.beforeFirstItem stack) token =
      State.step (.beforeValue (.items [] :: stack)) token := by
    cases token <;> first | rfl | exact absurd rfl opens
  rw [Reads, List.foldlM_cons, same]
  exact reads

/-- No value begins with a closing bracket. -/
private theorem exists_tokens_eq_cons (value : Json) :
    ∃ first rest, value.tokens = first :: rest ∧ first ≠ .closeArray := by
  cases value with
  | array items => cases items <;> simp [tokens]
  | object members => cases members <;> simp [tokens]
  | _ => simp [tokens]

/-- What follows an item completes the array.  The frame holds the items before it from the
last one back. -/
private theorem reads_items {items : List Json} (back : ∀ item ∈ items, ReadsBack item)
    (stack : List Frame) (item : Json) (done : List Json) :
    Reads (.afterValue item (.items done :: stack)) (itemTokens items ++ [.closeArray])
      (.afterValue (.array (done.reverse ++ item :: items)) stack) := by
  induction items generalizing item done with
  | nil =>
      apply Reads.step _ (Reads.refl _)
      simp [State.step]
  | cons next items induction =>
      have head := back next List.mem_cons_self (.items (item :: done) :: stack)
      have tail := induction (fun later member => back later (List.mem_cons_of_mem _ member))
        next (item :: done)
      have whole := head.trans tail
      have comma : State.step (.afterValue item (.items done :: stack)) .comma =
          some (.beforeValue (.items (item :: done) :: stack)) := rfl
      simp only [itemTokens, List.cons_append, List.append_assoc]
      apply Reads.step comma
      simpa using whole

/-- Members whose keys are texts. -/
def keyed (members : List (String × Json)) : List (Key × Json) :=
  members.map fun member => (some member.1, member.2)

private theorem ofMembers_keyed (members : List (String × Json)) :
    ofMembers (keyed members) = .object members := by
  unfold ofMembers keyed
  rw [mapM_map]
  intro member _
  rfl

/-- What follows a member completes the object. -/
private theorem reads_members {members : List (String × Json)}
    (back : ∀ member ∈ members, ReadsBack member.2) (stack : List Frame) (key : String)
    (value : Json) (before : List (String × Json)) :
    Reads (.afterValue value (.members (keyed before).reverse (some key) :: stack))
      (memberTokens members ++ [.closeObject])
      (.afterValue (.object (before ++ (key, value) :: members)) stack) := by
  have grown : (some key, value) :: (keyed before).reverse =
      (keyed (before ++ [(key, value)])).reverse := by
    simp [keyed]
  induction members generalizing key value before with
  | nil =>
      apply Reads.step _ (Reads.refl _)
      simp only [State.step, grown, List.reverse_reverse, ofMembers_keyed]
  | cons next members induction =>
      obtain ⟨nextKey, nextValue⟩ := next
      have head := back _ List.mem_cons_self
        (.members (keyed (before ++ [(key, value)])).reverse (some nextKey) :: stack)
      have tail := induction (fun later member => back later (List.mem_cons_of_mem _ member))
        nextKey nextValue (before ++ [(key, value)]) (by simp [keyed])
      have whole := head.trans tail
      have comma :
          State.step (.afterValue value (.members (keyed before).reverse (some key) :: stack))
            .comma = some (.beforeKey (keyed (before ++ [(key, value)])).reverse stack) := by
        rw [← grown]
        rfl
      simp only [memberTokens, List.cons_append, List.append_assoc]
      apply Reads.step comma
      apply Reads.step rfl
      apply Reads.step rfl
      simpa using whole

private theorem readsBack_array {items : List Json} (back : ∀ item ∈ items, ReadsBack item) :
    ReadsBack (.array items) := by
  intro stack
  cases items with
  | nil => exact Reads.step rfl (Reads.step rfl (Reads.refl _))
  | cons item items =>
      have head := back item List.mem_cons_self (.items [] :: stack)
      have tail := reads_items (fun later member => back later (List.mem_cons_of_mem _ member))
        stack item []
      obtain ⟨first, rest, same, opens⟩ := exists_tokens_eq_cons item
      rw [same] at head
      have whole := (Reads.firstItem opens head).trans tail
      rw [tokens, same]
      exact Reads.step rfl whole

private theorem readsBack_object {members : List (String × Json)}
    (back : ∀ member ∈ members, ReadsBack member.2) : ReadsBack (.object members) := by
  intro stack
  cases members with
  | nil => exact Reads.step rfl (Reads.step rfl (Reads.refl _))
  | cons member members =>
      obtain ⟨key, value⟩ := member
      have head := back _ List.mem_cons_self (.members [] (some key) :: stack)
      have tail := reads_members (fun later member => back later (List.mem_cons_of_mem _ member))
        stack key value []
      rw [tokens]
      exact Reads.step rfl (Reads.step rfl (Reads.step rfl (head.trans tail)))

/-- The tokens of a value make up the value again. -/
theorem readsBack {value : Json} (kept : value.Kept) : ReadsBack value := by
  induction kept with
  | array kept induction => exact readsBack_array induction
  | object kept induction => exact readsBack_object induction
  | _ =>
      intro stack
      exact Reads.step rfl (Reads.refl _)

end State

/-! ## Whole texts -/

/-- A written value is read again, blanks behind it or not. -/
theorem parse?_write {layout : Layout} (blank : layout.IsBlank) {value : Json}
    (kept : value.Kept) (blanks : List Char)
    (allBlank : ∀ char ∈ blanks, Token.isBlank char = true) :
    parse? (String.ofList (write layout 0 value ++ blanks)) = some value := by
  have ends : Token.Ends blanks := by
    have behind := Token.ends_nil.blanks allBlank
    rwa [List.append_nil] at behind
  have closing : Token.Scans blanks [] [] := by
    have behind := (Token.Scans.refl []).blanks allBlank
    rwa [List.append_nil] at behind
  have scans := (Token.scans_write blank kept 0 blanks ends).trans closing
  have scanned : Token.scan? (write layout 0 value ++ blanks) = some value.tokens := by
    rw [scans, Token.scan?]
    simp
  have reads : value.tokens.foldlM State.step (.beforeValue []) = some (.afterValue value []) :=
    State.readsBack kept []
  simp [parse?, ofTokens?, scanned, reads, State.result?]

theorem parse?_compact {value : Json} (kept : value.Kept) : parse? value.compact = some value := by
  have read := parse?_write Layout.isBlank_compact kept [] (by simp)
  rwa [List.append_nil] at read

theorem parse?_pretty {value : Json} (kept : value.Kept) : parse? value.pretty = some value := by
  have read := parse?_write Layout.isBlank_pretty kept [] (by simp)
  rwa [List.append_nil] at read

end KernelTuning.Json
