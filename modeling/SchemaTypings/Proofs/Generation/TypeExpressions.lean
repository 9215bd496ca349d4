import SchemaTypings.Declaration

/-!
# Type expressions

The types of the target language that are built from names by `[]`, `&` and `|`, with
parentheses. The suffix binds tighter than `&`, and `&` tighter than `|`. `Alternatives`
are the expressions of this grammar, and `Denotes` says which type a text stands for. No
two expressions are written with the same tokens, so a text stands for one type at most.
-/

namespace SchemaTypings

/-! ### Tokens -/

inductive TypeSign where
  | opening
  | closing
  | leftBracket
  | rightBracket
  | ampersand
  | bar
deriving DecidableEq, Repr

def TypeSign.ofChar? : Char → Option TypeSign
  | '(' => some opening
  | ')' => some closing
  | '[' => some leftBracket
  | ']' => some rightBracket
  | '&' => some ampersand
  | '|' => some bar
  | _ => none

/-- A name, a mark, or the end of a line, which is no part of an expression. -/
inductive TypeToken where
  | name (word : List Char)
  | sign (sign : TypeSign)
  | lineEnd
deriving DecidableEq, Repr

/-- What a character is in a text: a blank, a token on its own, or a part of a name. Every
character that is nothing else can be a part of a name. -/
inductive CharClass where
  | blank
  | token (token : TypeToken)
  | part
deriving DecidableEq, Repr

def classOf (c : Char) : CharClass :=
  if c == ' ' || c == '\t' then .blank
  else if c == '\n' || c == '\r' then .token .lineEnd
  else
    match TypeSign.ofChar? c with
    | some sign => .token (.sign sign)
    | none => .part

def beginsName (text : List Char) : Bool := text.head?.any fun c => classOf c == .part

/-- Puts a character in front of the name that the tokens begin with. -/
def continueName (c : Char) : List TypeToken → List TypeToken
  | .name word :: rest => .name (c :: word) :: rest
  | tokens => .name [c] :: tokens

def typeTokens : List Char → List TypeToken
  | [] => []
  | c :: rest =>
    match classOf c with
    | .blank => typeTokens rest
    | .token token => token :: typeTokens rest
    | .part =>
      if beginsName rest then continueName c (typeTokens rest) else .name [c] :: typeTokens rest

/-- A part of a name goes to the name that follows it, or is a name by itself. -/
theorem exists_continueName (c : Char) (tokens : List TypeToken) :
    ∃ word others, continueName c tokens = .name word :: others := by
  unfold continueName
  split <;> exact ⟨_, _, rfl⟩

/-- A text that begins with a part of a name has a name as its first token. -/
theorem exists_name_of_beginsName {text : List Char} (begins : beginsName text = true) :
    ∃ word others, typeTokens text = .name word :: others := by
  cases text with
  | nil => cases begins
  | cons c rest =>
    have part : classOf c = .part := by simpa [beginsName] using begins
    rw [typeTokens, part]
    by_cases further : beginsName rest
    · rw [if_pos further]
      exact exists_continueName c _
    · rw [if_neg further]
      exact ⟨[c], _, rfl⟩

/-- In front of a text that continues no name, a text ends with a whole token. -/
theorem typeTokens_append {text rest : List Char} (ends : beginsName rest = false) :
    typeTokens (text ++ rest) = typeTokens text ++ typeTokens rest := by
  induction text with
  | nil => rfl
  | cons c text ih =>
    have begins : beginsName (text ++ rest) = beginsName text := by
      cases text with
      | nil => exact ends
      | cons d text => rfl
    rw [List.cons_append, typeTokens, typeTokens, ih, begins]
    cases classOf c with
    | blank => rfl
    | token token => rfl
    | part =>
      by_cases further : beginsName text
      · obtain ⟨word, others, tokens⟩ := exists_name_of_beginsName further
        simp only [if_pos further, tokens]
        rfl
      · simp only [if_neg further]
        rfl

/-- A suffix is two tokens more. -/
theorem typeTokens_arrayOf (text : String) :
    typeTokens (arrayOf text).toList =
      typeTokens text.toList ++ [.sign .leftBracket, .sign .rightBracket] := by
  rw [arrayOf, String.toList_append]
  exact typeTokens_append (by decide)

/-! ### Expressions -/

inductive TargetType where
  | name (word : List Char)
  | array (item : TargetType)
  | both (first second : TargetType)
  | either (first second : TargetType)
deriving DecidableEq, Repr

mutual

/-- Types between which there is a choice, at least one. -/
inductive Alternatives where
  | last (parts : Parts)
  | more (parts : Parts) (rest : Alternatives)

/-- Types that are to hold at once, at least one. -/
inductive Parts where
  | last (operand : Operand)
  | more (operand : Operand) (rest : Parts)

/-- A name or an expression in parentheses, with any number of suffixes. -/
inductive Operand where
  | name (word : List Char) (suffixes : Nat)
  | group (inner : Alternatives) (suffixes : Nat)

end

def suffixTokens : Nat → List TypeToken
  | 0 => []
  | n + 1 => .sign .leftBracket :: .sign .rightBracket :: suffixTokens n

def TargetType.arrays (item : TargetType) : Nat → TargetType
  | 0 => item
  | n + 1 => .array (item.arrays n)

mutual

/-- The tokens that an expression is written with. -/
def Alternatives.tokens : Alternatives → List TypeToken
  | .last parts => parts.tokens
  | .more parts rest => parts.tokens ++ .sign .bar :: rest.tokens

def Parts.tokens : Parts → List TypeToken
  | .last operand => operand.tokens
  | .more operand rest => operand.tokens ++ .sign .ampersand :: rest.tokens

def Operand.tokens : Operand → List TypeToken
  | .name word suffixes => .name word :: suffixTokens suffixes
  | .group inner suffixes =>
    .sign .opening :: (inner.tokens ++ .sign .closing :: suffixTokens suffixes)

end

mutual

def Alternatives.type : Alternatives → TargetType
  | .last parts => parts.type
  | .more parts rest => .either parts.type rest.type

def Parts.type : Parts → TargetType
  | .last operand => operand.type
  | .more operand rest => .both operand.type rest.type

def Operand.type : Operand → TargetType
  | .name word suffixes => (TargetType.name word).arrays suffixes
  | .group inner suffixes => inner.type.arrays suffixes

end

/-- The text is written with the tokens of an expression for the type. -/
def Denotes (text : String) (type : TargetType) : Prop :=
  ∃ expression : Alternatives, expression.tokens = typeTokens text.toList ∧ expression.type = type

/-! ### Expressions are told apart by their tokens -/

/-- The tokens begin with none of these marks. -/
def BeginsWithNone (signs : List TypeSign) (tokens : List TypeToken) : Prop :=
  ∀ sign ∈ signs, tokens.head? ≠ some (.sign sign)

/-- What continues an operand, parts, and alternatives, if it comes next. -/
def operandSigns : List TypeSign := [.leftBracket]

def partsSigns : List TypeSign := .ampersand :: operandSigns

def alternativesSigns : List TypeSign := .bar :: partsSigns

section Ends

variable {sign : TypeSign} {signs : List TypeSign} {tokens rest : List TypeToken}

theorem BeginsWithNone.weaken (none : BeginsWithNone (sign :: signs) tokens) :
    BeginsWithNone signs tokens :=
  fun other mem => none other (List.mem_cons_of_mem sign mem)

theorem beginsWithNone_cons (other : sign ∉ signs) : BeginsWithNone signs (.sign sign :: rest) := by
  rintro sign' mem head
  cases head
  exact other mem

theorem BeginsWithNone.ne_cons (none : BeginsWithNone signs tokens) (mem : sign ∈ signs) :
    tokens ≠ .sign sign :: rest := by
  rintro rfl
  exact none sign mem rfl

end Ends

/-- Suffixes are taken as long as there are any. -/
theorem suffixTokens_inj {n m : Nat} {rest rest' : List TypeToken}
    (ends : BeginsWithNone operandSigns rest) (ends' : BeginsWithNone operandSigns rest')
    (same : suffixTokens n ++ rest = suffixTokens m ++ rest') : n = m ∧ rest = rest' := by
  induction n generalizing m with
  | zero => cases m with
    | zero => exact ⟨rfl, same⟩
    | succ m => exact absurd same (ends.ne_cons (by decide))
  | succ n ih => cases m with
    | zero => exact absurd same.symm (ends'.ne_cons (by decide))
    | succ m =>
      obtain ⟨equal, rests⟩ := ih (List.cons.inj (List.cons.inj same).2).2
      exact ⟨congrArg (· + 1) equal, rests⟩

mutual

/-- Expressions of the same tokens are equal, whatever follows that does not continue them. -/
theorem Alternatives.tokens_inj (first second : Alternatives) {rest rest' : List TypeToken}
    (ends : BeginsWithNone alternativesSigns rest) (ends' : BeginsWithNone alternativesSigns rest')
    (same : first.tokens ++ rest = second.tokens ++ rest') : first = second ∧ rest = rest' := by
  -- The first parts of both end at the same place: at a bar, or at what follows.
  have bar (tokens : List TypeToken) : BeginsWithNone partsSigns (.sign .bar :: tokens) :=
    beginsWithNone_cons (by decide)
  cases first with
  | last parts => cases second with
    | last parts' =>
      obtain ⟨equal, rests⟩ := parts.tokens_inj parts' ends.weaken ends'.weaken same
      exact ⟨congrArg Alternatives.last equal, rests⟩
    | more parts' others' =>
      simp only [Alternatives.tokens, List.append_assoc, List.cons_append] at same
      obtain ⟨-, rests⟩ := parts.tokens_inj parts' ends.weaken (bar _) same
      exact absurd rests (ends.ne_cons (by decide))
  | more parts others => cases second with
    | last parts' =>
      simp only [Alternatives.tokens, List.append_assoc, List.cons_append] at same
      obtain ⟨-, rests⟩ := parts.tokens_inj parts' (bar _) ends'.weaken same
      exact absurd rests.symm (ends'.ne_cons (by decide))
    | more parts' others' =>
      simp only [Alternatives.tokens, List.append_assoc, List.cons_append] at same
      obtain ⟨equal, rests⟩ := parts.tokens_inj parts' (bar _) (bar _) same
      obtain ⟨equal', rests⟩ := others.tokens_inj others' ends ends' (List.cons.inj rests).2
      rw [equal, equal']
      exact ⟨rfl, rests⟩

theorem Parts.tokens_inj (first second : Parts) {rest rest' : List TypeToken}
    (ends : BeginsWithNone partsSigns rest) (ends' : BeginsWithNone partsSigns rest')
    (same : first.tokens ++ rest = second.tokens ++ rest') : first = second ∧ rest = rest' := by
  have ampersand (tokens : List TypeToken) :
      BeginsWithNone operandSigns (.sign .ampersand :: tokens) := beginsWithNone_cons (by decide)
  cases first with
  | last operand => cases second with
    | last operand' =>
      obtain ⟨equal, rests⟩ := operand.tokens_inj operand' ends.weaken ends'.weaken same
      exact ⟨congrArg Parts.last equal, rests⟩
    | more operand' others' =>
      simp only [Parts.tokens, List.append_assoc, List.cons_append] at same
      obtain ⟨-, rests⟩ := operand.tokens_inj operand' ends.weaken (ampersand _) same
      exact absurd rests (ends.ne_cons (by decide))
  | more operand others => cases second with
    | last operand' =>
      simp only [Parts.tokens, List.append_assoc, List.cons_append] at same
      obtain ⟨-, rests⟩ := operand.tokens_inj operand' (ampersand _) ends'.weaken same
      exact absurd rests.symm (ends'.ne_cons (by decide))
    | more operand' others' =>
      simp only [Parts.tokens, List.append_assoc, List.cons_append] at same
      obtain ⟨equal, rests⟩ := operand.tokens_inj operand' (ampersand _) (ampersand _) same
      obtain ⟨equal', rests⟩ := others.tokens_inj others' ends ends' (List.cons.inj rests).2
      rw [equal, equal']
      exact ⟨rfl, rests⟩

theorem Operand.tokens_inj (first second : Operand) {rest rest' : List TypeToken}
    (ends : BeginsWithNone operandSigns rest) (ends' : BeginsWithNone operandSigns rest')
    (same : first.tokens ++ rest = second.tokens ++ rest') : first = second ∧ rest = rest' := by
  -- Nothing continues what is inside a group but its own parts, so it ends with the group.
  have closing (tokens : List TypeToken) :
      BeginsWithNone alternativesSigns (.sign .closing :: tokens) := beginsWithNone_cons (by decide)
  cases first with
  | name word suffixes => cases second with
    | name word' suffixes' =>
      simp only [Operand.tokens, List.cons_append] at same
      obtain ⟨equal, same⟩ := List.cons.inj same
      obtain ⟨equal', rests⟩ := suffixTokens_inj ends ends' same
      cases equal
      rw [equal']
      exact ⟨rfl, rests⟩
    | group inner' suffixes' => cases same
  | group inner suffixes => cases second with
    | name word' suffixes' => cases same
    | group inner' suffixes' =>
      simp only [Operand.tokens, List.append_assoc, List.cons_append] at same
      obtain ⟨equal, same⟩ := inner.tokens_inj inner' (closing _) (closing _) (List.cons.inj same).2
      obtain ⟨equal', rests⟩ := suffixTokens_inj ends ends' (List.cons.inj same).2
      rw [equal, equal']
      exact ⟨rfl, rests⟩

end

/-- A text stands for one type at most. -/
theorem Denotes.unique {text : String} {type type' : TargetType} (denotes : Denotes text type)
    (denotes' : Denotes text type') : type = type' := by
  obtain ⟨expression, written, rfl⟩ := denotes
  obtain ⟨expression', written', rfl⟩ := denotes'
  have nothing : BeginsWithNone alternativesSigns [] := by
    intro sign mem head
    cases head
  obtain ⟨rfl, -⟩ := expression.tokens_inj expression' nothing nothing
    (congrArg (· ++ []) (written.trans written'.symm))
  rfl

/-! ### Expressions with a suffix -/

def Operand.suffixed : Operand → Operand
  | .name word suffixes => .name word (suffixes + 1)
  | .group inner suffixes => .group inner (suffixes + 1)

def Parts.suffixed : Parts → Parts
  | .last operand => .last operand.suffixed
  | .more operand rest => .more operand rest.suffixed

/-- The expression with one suffix more, which goes to its last operand. -/
def Alternatives.suffixed : Alternatives → Alternatives
  | .last parts => .last parts.suffixed
  | .more parts rest => .more parts rest.suffixed

/-- The expression is one operand: a name or a group, with any number of suffixes. -/
def Alternatives.IsOperand (expression : Alternatives) : Prop :=
  ∃ operand, expression = .last (.last operand)

theorem suffixTokens_succ (n : Nat) :
    suffixTokens (n + 1) = suffixTokens n ++ [.sign .leftBracket, .sign .rightBracket] := by
  induction n with
  | zero => rfl
  | succ n ih => exact congrArg (.sign .leftBracket :: .sign .rightBracket :: ·) ih

theorem Operand.tokens_suffixed (operand : Operand) :
    operand.suffixed.tokens = operand.tokens ++ [.sign .leftBracket, .sign .rightBracket] := by
  cases operand with
  | name word suffixes => simp [suffixed, tokens, suffixTokens_succ]
  | group inner suffixes => simp [suffixed, tokens, suffixTokens_succ]

theorem Parts.tokens_suffixed (parts : Parts) :
    parts.suffixed.tokens = parts.tokens ++ [.sign .leftBracket, .sign .rightBracket] := by
  cases parts with
  | last operand => exact operand.tokens_suffixed
  | more operand rest =>
    simp only [suffixed, tokens, rest.tokens_suffixed, List.append_assoc, List.cons_append]

/-- A suffix comes behind all tokens, so that it belongs to the last operand. -/
theorem Alternatives.tokens_suffixed (expression : Alternatives) :
    expression.suffixed.tokens =
      expression.tokens ++ [.sign .leftBracket, .sign .rightBracket] := by
  cases expression with
  | last parts => exact parts.tokens_suffixed
  | more parts rest =>
    simp only [suffixed, tokens, rest.tokens_suffixed, List.append_assoc, List.cons_append]

/-- A suffix makes an operand an array, whereas a choice stays a choice and types that hold
at once stay so. -/
theorem Alternatives.type_suffixed_iff (expression : Alternatives) :
    expression.suffixed.type = .array expression.type ↔ expression.IsOperand := by
  cases expression with
  | more parts rest => simp [suffixed, type, IsOperand]
  | last parts => cases parts with
    | more operand rest => simp [suffixed, Parts.suffixed, type, Parts.type, IsOperand]
    | last operand =>
      refine iff_of_true ?_ ⟨operand, rfl⟩
      cases operand <;> rfl

end SchemaTypings
