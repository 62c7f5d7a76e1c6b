import Mathlib
import OpCalculus.Scheme

/-!
# Unique reading

The text of a type, and that of a scheme, can be read in one way only, if the names of variables are
identifiers (`text_injective`). No reader is needed for that: a text that is followed by more text already
tells where it ends. A word ends at the first character that continues no word, and a type at the first
closing character, since only an arrow could extend a type. So every constructor cancels its keyword, its
numbers and its components one after the other, from two equal texts at the same time.
-/

namespace OpCalculus

/-! ## Words -/

namespace Text

/-- The characters of names and numbers. -/
def isWordChar (c : Char) : Bool := isAlphabetic c || isNumeric c || c = '_'

/-- The characters that stand behind a word. -/
def delimiters : List Char := [' ', ',', '.', '>', ')', ']']

/-- The text continues no word. -/
def EndsWord (rest : List Char) : Prop := ∀ c ∈ rest.head?, isWordChar c = false

/-- The text continues no type: it starts neither with a word nor with an arrow. -/
def EndsType (rest : List Char) : Prop := EndsWord rest ∧ rest.head? ≠ some ' '

variable {w w' rest rest' : List Char} {c : Char} {m n : Nat}

theorem isWordChar_of_isDigit (h : c.isDigit = true) : isWordChar c = true := by
  simp only [Char.isDigit, ge_iff_le, Bool.and_eq_true, decide_eq_true_eq, UInt32.le_iff_toNat_le] at h
  have digits : (decide (0x30 ≤ c.toNat) && decide (c.toNat ≤ 0x39)) = true :=
    Bool.and_eq_true_iff.mpr ⟨decide_eq_true h.1, decide_eq_true h.2⟩
  have numeric : isNumeric c = true := List.any_eq_true.mpr ⟨(0x30, 0x39), List.mem_cons_self .., digits⟩
  simp [isWordChar, numeric]

theorem isWordChar_delimiter (h : c ∈ delimiters) : isWordChar c = false := by
  simp only [delimiters, List.mem_cons, List.not_mem_nil, or_false] at h
  rcases h with rfl | rfl | rfl | rfl | rfl | rfl <;> decide +kernel

theorem endsWord_cons (h : c ∈ delimiters) : EndsWord (c :: rest) := by
  simpa [EndsWord] using isWordChar_delimiter h

theorem endsType_cons (h : c ∈ [',', '>', ')']) : EndsType (c :: rest) := by
  refine ⟨endsWord_cons (by grind [delimiters]), ?_⟩
  rintro ⟨⟩
  simp at h

theorem endsType_nil : EndsType [] := by
  simp [EndsType, EndsWord]

theorem takeWhile_word (word : ∀ c ∈ w, isWordChar c = true) (ends : EndsWord rest) :
    (w ++ rest).takeWhile isWordChar = w := by
  rw [List.takeWhile_append_of_pos word]
  cases rest with
  | nil => simp
  | cons c rest => simp [ends c rfl]

theorem word_append_inj (word : ∀ c ∈ w, isWordChar c = true) (word' : ∀ c ∈ w', isWordChar c = true)
    (ends : EndsWord rest) (ends' : EndsWord rest') (h : w ++ rest = w' ++ rest') :
    w = w' ∧ rest = rest' := by
  have same : w = w' := by rw [← takeWhile_word word ends, h, takeWhile_word word' ends']
  subst same
  exact ⟨rfl, List.append_cancel_left h⟩

/-- The items of a list, each after a mark. -/
def marked {α : Type} (mark : Char) (write : α → List Char) (items : List α) : List Char :=
  items.flatMap fun item => mark :: write item

section Marked

variable {α : Type} {mark stop : Char} {write : α → List Char} {items items' : List α}

theorem endsWord_marked (hmark : mark ∈ delimiters)
    (hstop : stop ∈ delimiters) : EndsWord (marked mark write items ++ stop :: rest) := by
  cases items with
  | nil => exact endsWord_cons hstop
  | cons item items => exact endsWord_cons hmark

theorem marked_append_inj (hmark : mark ∈ delimiters)
    (hstop : stop ∈ delimiters) (differ : mark ≠ stop)
    (read : ∀ a ∈ items, ∀ b ∈ items', ∀ ⦃rest rest'⦄, EndsWord rest → EndsWord rest' →
      write a ++ rest = write b ++ rest' → a = b ∧ rest = rest')
    (h : marked mark write items ++ stop :: rest = marked mark write items' ++ stop :: rest') :
    items = items' ∧ rest = rest' := by
  induction items generalizing items' with
  | nil =>
      cases items' with
      | nil => exact ⟨rfl, (List.cons.inj h).2⟩
      | cons b items' => exact absurd (List.cons.inj h).1 differ.symm
  | cons a items ih =>
      cases items' with
      | nil => exact absurd (List.cons.inj h).1 differ
      | cons b items' =>
          simp only [marked, List.flatMap_cons, List.cons_append, List.append_assoc, List.cons.injEq,
            true_and] at h
          obtain ⟨rfl, later⟩ := read a (List.mem_cons_self ..) b (List.mem_cons_self ..)
            (endsWord_marked hmark hstop) (endsWord_marked hmark hstop) h
          obtain ⟨rfl, rests⟩ := ih (fun a ha b hb =>
            read a (List.mem_cons_of_mem _ ha) b (List.mem_cons_of_mem _ hb)) later
          exact ⟨rfl, rests⟩

end Marked

/-! ## Numbers -/

theorem isWordChar_of_mem_digits (h : c ∈ Nat.toDigits 10 n) : isWordChar c = true :=
  isWordChar_of_isDigit (Nat.isDigit_of_mem_toDigits (by decide) (by decide) h)

theorem digits_append_inj (ends : EndsWord rest) (ends' : EndsWord rest')
    (h : Nat.toDigits 10 m ++ rest = Nat.toDigits 10 n ++ rest') : m = n ∧ rest = rest' := by
  obtain ⟨digits, rests⟩ := word_append_inj (fun _ => isWordChar_of_mem_digits)
    (fun _ => isWordChar_of_mem_digits) ends ends' h
  rw [← Nat.toList_repr, ← Nat.toList_repr, String.toList_inj] at digits
  exact ⟨Nat.repr_inj.mp digits, rests⟩

theorem digits_append_ne (h : isWordChar c = false) : Nat.toDigits 10 n ++ rest ≠ c :: rest' := by
  intro same
  obtain ⟨d, ds, digits⟩ := List.exists_cons_of_ne_nil (Nat.toDigits_ne_nil (n := n) (b := 10))
  have word : isWordChar d = true := isWordChar_of_mem_digits (n := n) (by simp [digits])
  rw [digits, List.cons_append] at same
  rw [(List.cons.inj same).1, h] at word
  cases word

theorem dim_append_inj
    (h : Nat.toDigits 10 m ++ ',' :: ' ' :: rest = Nat.toDigits 10 n ++ ',' :: ' ' :: rest') :
    m = n ∧ rest = rest' := by
  obtain ⟨same, after⟩ := digits_append_inj (endsWord_cons (by decide)) (endsWord_cons (by decide)) h
  exact ⟨same, by simpa using after⟩

/-- The dimensions behind the first one. -/
def laterDims (shape : List Nat) : List Char := marked ',' (fun dim => ' ' :: Nat.toDigits 10 dim) shape

theorem toList_joined_dims (dim : Nat) (shape : List Nat) :
    (joined ", " ((dim :: shape).map toString)).toList = Nat.toDigits 10 dim ++ laterDims shape := by
  induction shape generalizing dim with
  | nil => simp [joined, laterDims, marked]
  | cons next shape ih => simpa [joined, laterDims, marked] using ih next

theorem endsWord_laterDims (shape : List Nat) : EndsWord (laterDims shape ++ ']' :: rest) :=
  endsWord_marked (by decide) (by decide)

theorem laterDims_append_inj {shape shape' : List Nat}
    (h : laterDims shape ++ ']' :: rest = laterDims shape' ++ ']' :: rest') :
    shape = shape' ∧ rest = rest' := by
  refine marked_append_inj (by decide) (by decide) (by decide) (fun m _ n _ rest rest' ends ends' h => ?_) h
  exact digits_append_inj ends ends' (List.cons.inj h).2

theorem shapeText_append_inj {shape shape' : List Nat}
    (h : (shapeText shape).toList ++ rest = (shapeText shape').toList ++ rest') :
    shape = shape' ∧ rest = rest' := by
  have bracket : isWordChar ']' = false := isWordChar_delimiter (by decide)
  simp only [shapeText, listing, String.toList_append, List.append_assoc] at h
  have h := List.append_cancel_left h
  cases shape with
  | nil =>
      cases shape' with
      | nil => simpa [joined] using h
      | cons dim' shape' =>
          rw [toList_joined_dims, List.append_assoc] at h
          exact absurd h.symm (digits_append_ne bracket)
  | cons dim shape =>
      rw [toList_joined_dims, List.append_assoc] at h
      cases shape' with
      | nil => exact absurd h (digits_append_ne bracket)
      | cons dim' shape' =>
          rw [toList_joined_dims, List.append_assoc] at h
          obtain ⟨rfl, later⟩ := digits_append_inj (endsWord_laterDims shape) (endsWord_laterDims shape') h
          obtain ⟨rfl, rests⟩ := laterDims_append_inj later
          exact ⟨rfl, rests⟩

end Text

open Text

variable {rest rest' : List Char}

/-! ## Scalars and variables -/

theorem ScalarKind.isWordChar_of_mem (kind : ScalarKind) : ∀ c ∈ kind.text.toList, isWordChar c = true := by
  have all : kind.text.toList.all isWordChar = true := by cases kind <;> decide +kernel
  exact List.all_eq_true.mp all

theorem ScalarKind.text_inj {kind kind' : ScalarKind} (h : kind.text = kind'.text) : kind = kind' := by
  revert h
  cases kind <;> cases kind' <;> decide

/-- A name given by an author is an identifier. -/
def TypeVar.isLegible : TypeVar → Bool
  | named name => isIdentifier name
  | fresh _ => true

theorem isWordChar_of_isIdentifier {name : String} (h : isIdentifier name = true) :
    ∀ c ∈ name.toList, isWordChar c = true := by
  unfold isIdentifier at h
  cases chars : name.toList with
  | nil => simp
  | cons first others =>
      rw [chars] at h
      simp only [Bool.and_eq_true, List.all_eq_true] at h
      refine List.forall_mem_cons.mpr ⟨?_, h.2⟩
      simp only [isWordChar, Bool.or_eq_true] at h ⊢
      tauto

theorem TypeVar.text_append_inj {v v' : TypeVar} (legible : v.isLegible = true)
    (legible' : v'.isLegible = true) (ends : EndsWord rest) (ends' : EndsWord rest')
    (h : v.text.toList ++ rest = v'.text.toList ++ rest') : v = v' ∧ rest = rest' := by
  cases v with
  | named name =>
      cases v' with
      | named name' =>
          obtain ⟨names, rests⟩ := word_append_inj (isWordChar_of_isIdentifier legible)
            (isWordChar_of_isIdentifier legible') ends ends' (by simpa [TypeVar.text] using h)
          exact ⟨congrArg TypeVar.named (String.toList_inj.mp names), rests⟩
      | fresh id' => simp [TypeVar.text] at h
  | fresh id =>
      cases v' with
      | named name' => simp [TypeVar.text] at h
      | fresh id' =>
          obtain ⟨rfl, rests⟩ := digits_append_inj ends ends' (by simpa [TypeVar.text] using h)
          exact ⟨rfl, rests⟩

/-! ## Types -/

namespace Ty

/-- The names of the variables of a type are identifiers. -/
def Legible (t : Ty) : Prop := ∀ v ∈ t.occurrences, v.isLegible = true

instance (t : Ty) : Decidable t.Legible := inferInstanceAs (Decidable (∀ v ∈ t.occurrences, _))

variable {a b t t' : Ty}

theorem legible_function : (function a b).Legible ↔ a.Legible ∧ b.Legible := List.forall_mem_append

theorem legible_strategy : (strategy a b).Legible ↔ a.Legible ∧ b.Legible := List.forall_mem_append

/-- The text of a type as the input of a function. -/
def inputText : Ty → String
  | function input output => "(" ++ (function input output).text ++ ")"
  | t => t.text

theorem inputText_of_asFunction? (h : t.asFunction? = none) : t.inputText = t.text := by
  cases t with
  | function => cases h
  | _ => rfl

theorem text_function (a b : Ty) : (function a b).text = a.inputText ++ " -> " ++ b.text := by
  cases a with
  | function => simp only [text, inputText, String.append_assoc, String.reduceAppend]
  | _ => rfl

/-- The beginnings of types, each with the constructor that it tells. -/
def keywords : List (String × String) :=
  [("Bool", "Scalar"), ("Int", "Scalar"), ("Number", "Scalar"), ("String", "Scalar"), ("Vector<", "Vector"),
   ("Matrix<", "Matrix"), ("Tensor<", "Tensor"), ("(", "Function"), ("'", "Var"), ("?", "Var"),
   ("Sequence<", "Sequence"), ("Strategy<", "Strategy")]

theorem exists_keyword (t : Ty) :
    ∃ k, (k, t.variant) ∈ keywords ∧ k.toList <+: t.inputText.toList := by
  cases t with
  | scalar kind => exact ⟨kind.text, by cases kind <;> decide, List.prefix_rfl⟩
  | vector => exact ⟨"Vector<", by simp [keywords, variant], by simp [inputText, text]⟩
  | matrix => exact ⟨"Matrix<", by simp [keywords, variant], by simp [inputText, text]⟩
  | tensor => exact ⟨"Tensor<", by simp [keywords, variant], by simp [inputText, text]⟩
  | function => exact ⟨"(", by simp [keywords, variant], by simp [inputText]⟩
  | var v =>
      cases v with
      | named => exact ⟨"'", by simp [keywords, variant], by simp [inputText, text, TypeVar.text]⟩
      | fresh => exact ⟨"?", by simp [keywords, variant], by simp [inputText, text, TypeVar.text]⟩
  | sequence => exact ⟨"Sequence<", by simp [keywords, variant], by simp [inputText, text]⟩
  | strategy => exact ⟨"Strategy<", by simp [keywords, variant], by simp [inputText, text]⟩

theorem variant_eq_of_inputText (h : t.inputText.toList ++ rest = t'.inputText.toList ++ rest') :
    t.variant = t'.variant := by
  have apart : ∀ p ∈ keywords, ∀ q ∈ keywords, p.1.toList <+: q.1.toList → p.2 = q.2 := by decide
  obtain ⟨k, hk, starts⟩ := exists_keyword t
  obtain ⟨k', hk', starts'⟩ := exists_keyword t'
  have first : k.toList <+: t.inputText.toList ++ rest := starts.trans (List.prefix_append ..)
  have second : k'.toList <+: t.inputText.toList ++ rest := h ▸ starts'.trans (List.prefix_append ..)
  rcases List.prefix_or_prefix_of_prefix first second with shorter | longer
  · exact apart _ hk _ hk' shorter
  · exact (apart _ hk' _ hk longer).symm

/-- Whatever is written like `t` up to the end of a type is `t`. -/
def Readable (t : Ty) : Prop :=
  ∀ ⦃t' rest rest'⦄, t'.Legible → EndsType rest → EndsType rest' →
    t.text.toList ++ rest = t'.text.toList ++ rest' → t = t' ∧ rest = rest'

/-- The same for the text of an input, which ends with its last word or bracket. -/
def ReadableInput (t : Ty) : Prop :=
  ∀ ⦃t' rest rest'⦄, t'.Legible → EndsWord rest → EndsWord rest' →
    t.inputText.toList ++ rest = t'.inputText.toList ++ rest' → t = t' ∧ rest = rest'

theorem Readable.append_inj {c : Char} (h : t.Readable) (closing : c ∈ [',', '>', ')'])
    (same : t.text.toList ++ c :: rest = t'.text.toList ++ c :: rest') (legible : t'.Legible) :
    t = t' ∧ rest = rest' := by
  obtain ⟨types, after⟩ := h legible (endsType_cons closing) (endsType_cons closing) same
  exact ⟨types, (List.cons.inj after).2⟩

/-! ### One constructor at a time -/

theorem readableInput_scalar (kind : ScalarKind) : (scalar kind).ReadableInput := by
  intro t' rest rest' _ ends ends' h
  have same := variant_eq_of_inputText h
  cases t' with
  | scalar kind' =>
      obtain ⟨texts, rests⟩ := word_append_inj kind.isWordChar_of_mem kind'.isWordChar_of_mem ends ends' h
      exact ⟨congrArg scalar (ScalarKind.text_inj (String.toList_inj.mp texts)), rests⟩
  | _ => simp [variant] at same

theorem readableInput_var {v : TypeVar} (legible : v.isLegible = true) : (var v).ReadableInput := by
  intro t' rest rest' legible' ends ends' h
  have same := variant_eq_of_inputText h
  cases t' with
  | var v' =>
      obtain ⟨rfl, rests⟩ :=
        TypeVar.text_append_inj legible (legible' v' (List.mem_singleton_self v')) ends ends' h
      exact ⟨rfl, rests⟩
  | _ => simp [variant] at same

theorem readableInput_vector {n : Nat} (element : t.Readable) : (vector n t).ReadableInput := by
  intro t' rest rest' legible _ _ h
  have same := variant_eq_of_inputText h
  cases t' with
  | vector n' t' =>
      have h : Nat.toDigits 10 n ++ ',' :: ' ' :: (t.text.toList ++ '>' :: rest) =
          Nat.toDigits 10 n' ++ ',' :: ' ' :: (t'.text.toList ++ '>' :: rest') := by
        simpa [inputText, text] using h
      obtain ⟨rfl, after⟩ := dim_append_inj h
      obtain ⟨rfl, rests⟩ := element.append_inj (by simp) after legible
      exact ⟨rfl, rests⟩
  | _ => simp [variant] at same

theorem readableInput_matrix {m n : Nat} (element : t.Readable) : (matrix m n t).ReadableInput := by
  intro t' rest rest' legible _ _ h
  have same := variant_eq_of_inputText h
  cases t' with
  | matrix m' n' t' =>
      have h : Nat.toDigits 10 m ++ ',' :: ' ' :: (Nat.toDigits 10 n ++ ',' :: ' ' ::
            (t.text.toList ++ '>' :: rest)) =
          Nat.toDigits 10 m' ++ ',' :: ' ' :: (Nat.toDigits 10 n' ++ ',' :: ' ' ::
            (t'.text.toList ++ '>' :: rest')) := by
        simpa [inputText, text] using h
      obtain ⟨rfl, afterRows⟩ := dim_append_inj h
      obtain ⟨rfl, afterCols⟩ := dim_append_inj afterRows
      obtain ⟨rfl, rests⟩ := element.append_inj (by simp) afterCols legible
      exact ⟨rfl, rests⟩
  | _ => simp [variant] at same

theorem readableInput_tensor {shape : List Nat} (element : t.Readable) : (tensor shape t).ReadableInput := by
  intro t' rest rest' legible _ _ h
  have same := variant_eq_of_inputText h
  cases t' with
  | tensor shape' t' =>
      have h : (shapeText shape).toList ++ ',' :: ' ' :: (t.text.toList ++ '>' :: rest) =
          (shapeText shape').toList ++ ',' :: ' ' :: (t'.text.toList ++ '>' :: rest') := by
        simpa [inputText, text] using h
      obtain ⟨rfl, after⟩ := shapeText_append_inj h
      simp only [List.cons.injEq, true_and] at after
      obtain ⟨rfl, rests⟩ := element.append_inj (by simp) after legible
      exact ⟨rfl, rests⟩
  | _ => simp [variant] at same

theorem readableInput_sequence (element : t.Readable) : (sequence t).ReadableInput := by
  intro t' rest rest' legible _ _ h
  have same := variant_eq_of_inputText h
  cases t' with
  | sequence t' =>
      have h : t.text.toList ++ '>' :: rest = t'.text.toList ++ '>' :: rest' := by
        simpa [inputText, text] using h
      obtain ⟨rfl, rests⟩ := element.append_inj (by simp) h legible
      exact ⟨rfl, rests⟩
  | _ => simp [variant] at same

theorem readableInput_strategy (state : a.Readable) (action : b.Readable) : (strategy a b).ReadableInput := by
  intro t' rest rest' legible _ _ h
  have same := variant_eq_of_inputText h
  cases t' with
  | strategy a' b' =>
      obtain ⟨legibleState, legibleAction⟩ := legible_strategy.mp legible
      have h : a.text.toList ++ ',' :: ' ' :: (b.text.toList ++ '>' :: rest) =
          a'.text.toList ++ ',' :: ' ' :: (b'.text.toList ++ '>' :: rest') := by
        simpa [inputText, text] using h
      obtain ⟨rfl, after⟩ := state.append_inj (by simp) h legibleState
      simp only [List.cons.injEq, true_and] at after
      obtain ⟨rfl, rests⟩ := action.append_inj (by simp) after legibleAction
      exact ⟨rfl, rests⟩
  | _ => simp [variant] at same

theorem readableInput_function (whole : (function a b).Readable) : (function a b).ReadableInput := by
  intro t' rest rest' legible _ _ h
  have same := variant_eq_of_inputText h
  cases t' with
  | function a' b' =>
      have h : (function a b).text.toList ++ ')' :: rest = (function a' b').text.toList ++ ')' :: rest' := by
        simpa [inputText] using h
      exact whole.append_inj (by simp) h legible
  | _ => simp [variant] at same

/-! ### Arrows -/

theorem toList_text_function (a b : Ty) : (function a b).text.toList ++ rest =
    a.inputText.toList ++ ' ' :: '-' :: '>' :: ' ' :: (b.text.toList ++ rest) := by
  simp [text_function]

theorem readable_of_input (single : t.asFunction? = none) (input : t.ReadableInput) : t.Readable := by
  intro t' rest rest' legible ends ends' h
  rw [← inputText_of_asFunction? single] at h
  cases t' with
  | function a b =>
      -- The other text goes on with an arrow, where this one has ended.
      rw [toList_text_function] at h
      obtain ⟨-, arrow⟩ := input (legible_function.mp legible).1 ends.1 (endsWord_cons (by decide)) h
      exact absurd (congrArg List.head? arrow) ends.2
  | _ => exact input legible ends.1 ends'.1 h

theorem readable_function (input : a.ReadableInput) (output : b.Readable) : (function a b).Readable := by
  intro t' rest rest' legible ends ends' h
  rw [toList_text_function] at h
  cases t' with
  | function a' b' =>
      obtain ⟨legibleInput, legibleOutput⟩ := legible_function.mp legible
      rw [toList_text_function] at h
      obtain ⟨rfl, arrows⟩ := input legibleInput (endsWord_cons (by decide)) (endsWord_cons (by decide)) h
      simp only [List.cons.injEq, true_and] at arrows
      obtain ⟨rfl, rests⟩ := output legibleOutput ends ends' arrows
      exact ⟨rfl, rests⟩
  | _ =>
      obtain ⟨-, arrow⟩ := input legible (endsWord_cons (by decide)) ends'.1 h
      exact absurd (congrArg List.head? arrow).symm ends'.2

theorem readable (t : Ty) (legible : t.Legible) : t.Readable ∧ t.ReadableInput := by
  have single : ∀ {t : Ty}, t.asFunction? = none → t.ReadableInput → t.Readable ∧ t.ReadableInput :=
    fun none input => ⟨readable_of_input none input, input⟩
  induction t with
  | scalar kind => exact single rfl (readableInput_scalar kind)
  | var v => exact single rfl (readableInput_var (legible v (List.mem_singleton_self v)))
  | vector n t ih => exact single rfl (readableInput_vector (ih legible).1)
  | matrix m n t ih => exact single rfl (readableInput_matrix (ih legible).1)
  | tensor shape t ih => exact single rfl (readableInput_tensor (ih legible).1)
  | sequence t ih => exact single rfl (readableInput_sequence (ih legible).1)
  | strategy a b ihState ihAction =>
      obtain ⟨legibleState, legibleAction⟩ := legible_strategy.mp legible
      exact single rfl (readableInput_strategy (ihState legibleState).1 (ihAction legibleAction).1)
  | function a b ihInput ihOutput =>
      obtain ⟨legibleInput, legibleOutput⟩ := legible_function.mp legible
      have whole := readable_function (ihInput legibleInput).2 (ihOutput legibleOutput).1
      exact ⟨whole, readableInput_function whole⟩

theorem exists_input_prefix (t : Ty) : ∃ first : Ty, first.inputText.toList <+: t.text.toList := by
  by_cases single : t.asFunction? = none
  · exact ⟨t, by rw [inputText_of_asFunction? single]⟩
  · cases t with
    | function a b => exact ⟨a, by simp [text_function]⟩
    | _ => exact absurd rfl single

theorem not_forall_prefix_text (t : Ty) : ¬ "forall".toList <+: t.text.toList := by
  intro starts
  have apart : ∀ p ∈ keywords, ¬ "forall".toList <+: p.1.toList ∧ ¬ p.1.toList <+: "forall".toList := by
    decide
  obtain ⟨first, front⟩ := exists_input_prefix t
  obtain ⟨k, hk, starts'⟩ := exists_keyword first
  rcases List.prefix_or_prefix_of_prefix starts (starts'.trans front) with shorter | longer
  · exact (apart _ hk).1 shorter
  · exact (apart _ hk).2 longer

theorem text_inj (legible : t.Legible) (legible' : t'.Legible) (h : t.text = t'.text) : t = t' :=
  ((readable t legible).1 legible' endsType_nil endsType_nil (congrArg (String.toList · ++ []) h)).1

end Ty

/-! ## Schemes -/

namespace Scheme

/-- The names of the variables of a scheme, quantified or not, are identifiers. -/
def Legible (c : Scheme) : Prop := (∀ v ∈ c.vars, v.isLegible = true) ∧ c.body.Legible

instance (c : Scheme) : Decidable c.Legible := inferInstanceAs (Decidable (_ ∧ _))

/-- The quantified variables, each after a space. -/
def varsText (vars : List TypeVar) : List Char := marked ' ' (fun v => v.text.toList) vars

theorem toList_joined_vars (vars : List TypeVar) :
    (joined "" (vars.map fun v => " " ++ v.text)).toList = varsText vars := by
  induction vars with
  | nil => rfl
  | cons v vars ih =>
      cases vars with
      | nil => simp [joined, varsText, marked]
      | cons w vars => simpa [joined, varsText, marked] using ih

theorem varsText_append_inj {vars vars' : List TypeVar} (legible : ∀ v ∈ vars, v.isLegible = true)
    (legible' : ∀ v ∈ vars', v.isLegible = true)
    (h : varsText vars ++ '.' :: rest = varsText vars' ++ '.' :: rest') : vars = vars' ∧ rest = rest' :=
  marked_append_inj (by decide) (by decide) (by decide)
    (fun v hv w hw _ _ => TypeVar.text_append_inj (legible v hv) (legible' w hw)) h

variable {c c' : Scheme}

theorem text_of_mono (h : c.vars = []) : c.text = c.body.text := if_pos h

theorem toList_text (h : c.vars ≠ []) :
    c.text.toList = "forall".toList ++ (varsText c.vars ++ '.' :: ' ' :: c.body.text.toList) := by
  rw [text, if_neg h]
  simp [toList_joined_vars]

theorem text_ne_of_mono (mono : c.vars = []) (quantified : c'.vars ≠ []) : c.text ≠ c'.text := by
  intro same
  refine Ty.not_forall_prefix_text c.body ?_
  rw [← text_of_mono mono, same, toList_text quantified]
  exact List.prefix_append ..

theorem text_inj (legible : c.Legible) (legible' : c'.Legible) (h : c.text = c'.text) : c = c' := by
  by_cases mono : c.vars = [] <;> by_cases mono' : c'.vars = []
  · rw [text_of_mono mono, text_of_mono mono'] at h
    exact congrArg₂ mk (mono.trans mono'.symm) (Ty.text_inj legible.2 legible'.2 h)
  · exact absurd h (text_ne_of_mono mono mono')
  · exact absurd h.symm (text_ne_of_mono mono' mono)
  · have texts := congrArg String.toList h
    rw [toList_text mono, toList_text mono'] at texts
    obtain ⟨vars, rests⟩ := varsText_append_inj legible.1 legible'.1 (List.append_cancel_left texts)
    have bodies : c.body.text = c'.body.text := String.toList_inj.mp (List.cons.inj rests).2
    exact congrArg₂ mk vars (Ty.text_inj legible.2 legible'.2 bodies)

end Scheme

/-- Two types with the same text are equal, and so are two schemes, if every variable that has a name has
an identifier for its name. -/
theorem text_injective :
    (∀ t t' : Ty, t.Legible → t'.Legible → t.text = t'.text → t = t') ∧
    ∀ c c' : Scheme, c.Legible → c'.Legible → c.text = c'.text → c = c' :=
  ⟨fun _ _ => Ty.text_inj, fun _ _ => Scheme.text_inj⟩

theorem text_injective_nested :
    let a := TypeVar.named "a"
    let t := Ty.function (.function (.var a) .int) (.tensor [2, 30] (.var (.fresh 7)))
    let t' := (Ty.function (.function (.var (.fresh 0)) .int) (.tensor [2, 30] (.var (.fresh 7)))).replace
      [(.fresh 0, .var a)]
    t.text = "('a -> Int) -> Tensor<[2, 30], ?7>" ∧ t.Legible ∧ t'.Legible ∧ t.text = t'.text ∧ t = t' ∧
      (Scheme.mk [a] t).text = "forall 'a. ('a -> Int) -> Tensor<[2, 30], ?7>" ∧ (Scheme.mk [a] t).Legible ∧
      (Scheme.mk [a] t').Legible ∧ Scheme.mk [a] t = Scheme.mk [a] t' := by
  intro a t t'
  have legible : t.Legible := by decide +kernel
  have legible' : t'.Legible := by decide +kernel
  have quantified : (Scheme.mk [a] t).Legible := by decide +kernel
  have quantified' : (Scheme.mk [a] t').Legible := by decide +kernel
  refine ⟨by decide +kernel, legible, legible', by decide +kernel, ?_, by decide +kernel, quantified,
    quantified', ?_⟩
  · exact text_injective.1 t t' legible legible' (by decide +kernel)
  · exact text_injective.2 _ _ quantified quantified' (by decide +kernel)

-- A name that is no identifier may look like a type.
example : (Ty.var (.named "a -> 'b")).text = (Ty.function (.var (.named "a")) (.var (.named "b"))).text := by
  decide +kernel

end OpCalculus
