import Keto.Library.FormEncoding
import Mathlib.Data.List.Basic

/-!
The tokens of SPARQL queries over basic graph patterns, as an automaton that takes the
bytes of a text one by one. A string literal has four forms: in single or double
quotes, and in three of either, which may hold line ends. Codepoint escapes are read in
string literals, where they stand for the encoding of their character; bytes from 0x80
on are read as they are.
-/
namespace Keto.Library.Sparql

open FormEncoding

def ascii (s : String) : List UInt8 := s.toList.map fun c => c.toNat.toUInt8

inductive Token
  | word (name : List UInt8)
  | var (name : List UInt8)
  | iri (iri : List UInt8)
  | string (value : List UInt8)
  | langTag (tag : List UInt8)
  | carets
  | dot
  | semicolon
  | comma
  | opening
  | closing
  deriving DecidableEq, Repr

def singleQuote : UInt8 := 0x27

def doubleQuote : UInt8 := 0x22

def backslash : UInt8 := 0x5c

def lineFeed : UInt8 := 0x0a

def carriageReturn : UInt8 := 0x0d

def isWhite (c : UInt8) : Bool := c = 0x20 || c = 0x09 || c = lineFeed || c = carriageReturn

def isNameChar (c : UInt8) : Bool :=
  (0x30 ≤ c && c ≤ 0x39) || (0x41 ≤ c && c ≤ 0x5a) || (0x61 ≤ c && c ≤ 0x7a) || c = 0x5f ||
    0x80 ≤ c

def isIriChar (c : UInt8) : Bool :=
  0x20 < c && !excluded.contains c
where
  excluded : List UInt8 := [0x3c, 0x3e, doubleQuote, 0x7b, 0x7d, 0x7c, 0x5e, 0x60, backslash]

def escaped? (c : UInt8) : Option UInt8 :=
  if c = 0x74 then some 0x09
  else if c = 0x62 then some 0x08
  else if c = 0x6e then some lineFeed
  else if c = 0x72 then some carriageReturn
  else if c = 0x66 then some 0x0c
  else if c = backslash ∨ c = doubleQuote ∨ c = singleQuote then some c
  else none

def encode? (code : ℕ) : Option (List UInt8) :=
  if code.isValidChar then some (String.utf8EncodeChar (Char.ofNat code)) else none

/-- Where the automaton is. `quotes` is after one or two quotes of a literal; in a long
literal `closing` counts the quotes that may be its end. -/
inductive State
  | between
  | comment
  | word (name : List UInt8)
  | var (name : List UInt8)
  | langTag (tag : List UInt8)
  | iri (iri : List UInt8)
  | caret
  | quotes (delimiter : UInt8) (two : Bool)
  | string (delimiter : UInt8) (long : Bool) (value : List UInt8) (closing : ℕ)
  | escape (delimiter : UInt8) (long : Bool) (value : List UInt8)
  | codepoint (delimiter : UInt8) (long : Bool) (value : List UInt8) (left code : ℕ)
  deriving DecidableEq, Repr

def start (c : UInt8) : Option (List Token × State) :=
  if isWhite c then some ([], .between)
  else if c = 0x23 then some ([], .comment)
  else if c = 0x3c then some ([], .iri [])
  else if c = 0x3f ∨ c = 0x24 then some ([], .var [])
  else if c = 0x40 then some ([], .langTag [])
  else if c = 0x5e then some ([], .caret)
  else if c = singleQuote ∨ c = doubleQuote then some ([], .quotes c false)
  else if c = 0x2e then some ([.dot], .between)
  else if c = 0x3b then some ([.semicolon], .between)
  else if c = 0x2c then some ([.comma], .between)
  else if c = 0x7b then some ([.opening], .between)
  else if c = 0x7d then some ([.closing], .between)
  else if isNameChar c then some ([], .word [c])
  else none

/-- A token that ends where the next byte is none of its own. -/
def emit (token : Token) (c : UInt8) : Option (List Token × State) :=
  (start c).map fun next => (token :: next.1, next.2)

def content (delimiter : UInt8) (long : Bool) (value : List UInt8) (c : UInt8) :
    Option (List Token × State) :=
  if c = backslash then some ([], .escape delimiter long value)
  else if long = false ∧ (c = lineFeed ∨ c = carriageReturn) then none
  else some ([], .string delimiter long (value ++ [c]) 0)

def step : State → UInt8 → Option (List Token × State)
  | .between, c => start c
  | .comment, c => some ([], if c = lineFeed ∨ c = carriageReturn then .between else .comment)
  | .word name, c => if isNameChar c then some ([], .word (name ++ [c])) else emit (.word name) c
  | .var name, c =>
    if isNameChar c then some ([], .var (name ++ [c]))
    else if name = [] then none
    else emit (.var name) c
  | .langTag tag, c =>
    if isNameChar c ∨ c = 0x2d then some ([], .langTag (tag ++ [c]))
    else if tag = [] then none
    else emit (.langTag tag) c
  | .iri iri, c =>
    if c = 0x3e then some ([.iri iri], .between)
    else if isIriChar c then some ([], .iri (iri ++ [c]))
    else none
  | .caret, c => if c = 0x5e then some ([.carets], .between) else none
  | .quotes delimiter false, c =>
    if c = delimiter then some ([], .quotes delimiter true) else content delimiter false [] c
  | .quotes delimiter true, c =>
    if c = delimiter then some ([], .string delimiter true [] 0) else emit (.string []) c
  | .string delimiter false value _, c =>
    if c = delimiter then some ([.string value], .between) else content delimiter false value c
  | .string delimiter true value closing, c =>
    if c = delimiter then
      if closing = 2 then some ([.string value], .between)
      else some ([], .string delimiter true value (closing + 1))
    else content delimiter true (value ++ List.replicate closing delimiter) c
  | .escape delimiter long value, c =>
    match escaped? c with
    | some c' => some ([], .string delimiter long (value ++ [c']) 0)
    | none =>
      if c = 0x75 then some ([], .codepoint delimiter long value 4 0)
      else if c = 0x55 then some ([], .codepoint delimiter long value 8 0)
      else none
  | .codepoint delimiter long value left code, c => do
    let digit ← digitValue? c
    if left ≤ 1 then
      let character ← encode? (16 * code + digit)
      some ([], .string delimiter long (value ++ character) 0)
    else
      some ([], .codepoint delimiter long value (left - 1) (16 * code + digit))

/-- The tokens at the end of the text, where it may end. -/
def finish : State → Option (List Token)
  | .between => some []
  | .comment => some []
  | .word name => some [.word name]
  | .var name => if name = [] then none else some [.var name]
  | .langTag tag => if tag = [] then none else some [.langTag tag]
  | .quotes _ true => some [.string []]
  | _ => none

def run : State → List UInt8 → Option (List Token × State)
  | state, [] => some ([], state)
  | state, c :: rest => do
    let next ← step state c
    let more ← run next.2 rest
    return (next.1 ++ more.1, more.2)

def tokensFrom (state : State) (text : List UInt8) : Option (List Token) := do
  let ended ← run state text
  let last ← finish ended.2
  return ended.1 ++ last

def tokens (text : List UInt8) : Option (List Token) := tokensFrom .between text

example : tokens (ascii "?s <p> 'a''b' .") =
    some [.var (ascii "s"), .iri (ascii "p"), .string (ascii "a"), .string (ascii "b"), .dot] := by
  decide +kernel

theorem tokensFrom_cons (state : State) (c : UInt8) (rest : List UInt8) :
    tokensFrom state (c :: rest) =
      (step state c).bind fun next => (tokensFrom next.2 rest).map (next.1 ++ ·) := by
  cases hstep : step state c with
  | none => simp [tokensFrom, run, hstep]
  | some next =>
    cases hrun : run next.2 rest with
    | none => simp [tokensFrom, run, hstep, hrun]
    | some ended =>
      cases hfinish : finish ended.2 with
      | none => simp [tokensFrom, run, hstep, hrun, hfinish]
      | some last => simp [tokensFrom, run, hstep, hrun, hfinish]

theorem tokensFrom_of_step {state : State} {c : UInt8} {emitted : List Token} {next : State}
    (h : step state c = some (emitted, next)) (rest : List UInt8) :
    tokensFrom state (c :: rest) = (tokensFrom next rest).map (emitted ++ ·) := by
  rw [tokensFrom_cons, h, Option.bind_some]

theorem tokensFrom_of_silent {state next : State} {c : UInt8} (h : step state c = some ([], next))
    (rest : List UInt8) : tokensFrom state (c :: rest) = tokensFrom next rest := by
  rw [tokensFrom_of_step h]
  exact congrFun Option.map_id (tokensFrom next rest)

/-- A first part that the automaton gets through gives its tokens. -/
theorem tokensFrom_append {state next : State} {text : List UInt8} {emitted : List Token}
    (h : run state text = some (emitted, next)) (rest : List UInt8) :
    tokensFrom state (text ++ rest) = (tokensFrom next rest).map (emitted ++ ·) := by
  induction text generalizing state emitted with
  | nil =>
    obtain ⟨rfl, rfl⟩ := Prod.mk.inj (Option.some.inj h)
    simp
  | cons c text ih =>
    rw [run] at h
    obtain ⟨first, hstep, h⟩ := Option.bind_eq_some_iff.mp h
    obtain ⟨more, hrun, h⟩ := Option.bind_eq_some_iff.mp h
    obtain ⟨rfl, rfl⟩ := Prod.mk.inj (Option.some.inj h)
    rw [List.cons_append, tokensFrom_of_step hstep, ih hrun, Option.map_map]
    congr 1
    funext last
    exact (List.append_assoc first.1 more.1 last).symm

section Literals

variable {delimiter : UInt8}

def isPlain (delimiter c : UInt8) : Bool :=
  c != delimiter && c != backslash && c != lineFeed && c != carriageReturn

theorem content_of_plain {c : UInt8} (h : isPlain delimiter c = true) (value : List UInt8) :
    content delimiter false value c = some ([], .string delimiter false (value ++ [c]) 0) := by
  simp only [isPlain, Bool.and_eq_true, bne_iff_ne] at h
  simp [content, h.1.1.2, h.1.2, h.2]

theorem step_string_of_plain {c : UInt8} (h : isPlain delimiter c = true) (value : List UInt8) :
    step (.string delimiter false value 0) c =
      some ([], .string delimiter false (value ++ [c]) 0) := by
  have hne : c ≠ delimiter := by
    simp only [isPlain, Bool.and_eq_true, bne_iff_ne] at h
    exact h.1.1.1
  rw [step, if_neg hne, content_of_plain h]

theorem step_quotes_of_plain {c : UInt8} (h : isPlain delimiter c = true) :
    step (.quotes delimiter false) c = some ([], .string delimiter false [c] 0) := by
  have hne : c ≠ delimiter := by
    simp only [isPlain, Bool.and_eq_true, bne_iff_ne] at h
    exact h.1.1.1
  rw [step, if_neg hne, content_of_plain h]
  rfl

theorem tokensFrom_string_plain {bytes : List UInt8}
    (h : ∀ c ∈ bytes, isPlain delimiter c = true) (value rest : List UInt8) :
    tokensFrom (.string delimiter false value 0) (bytes ++ delimiter :: rest) =
      (tokensFrom .between rest).map (.string (value ++ bytes) :: ·) := by
  induction bytes generalizing value with
  | nil =>
    have hend : step (.string delimiter false value 0) delimiter =
        some ([.string value], .between) := by rw [step, if_pos rfl]
    rw [List.append_nil, List.nil_append, tokensFrom_of_step hend]
    rfl
  | cons c bytes ih =>
    rw [List.forall_mem_cons] at h
    rw [List.cons_append, tokensFrom_of_step (step_string_of_plain h.1 value), ih h.2,
      List.append_assoc, Option.map_map]
    rfl

/-- Plain text between quotes is the literal of that text. -/
theorem tokensFrom_quotes_plain {value rest : List UInt8}
    (h : ∀ c ∈ value, isPlain delimiter c = true) (hrest : rest.head? ≠ some delimiter) :
    tokensFrom (.quotes delimiter false) (value ++ delimiter :: rest) =
      (tokensFrom .between rest).map (.string value :: ·) := by
  cases value with
  | nil =>
    have hempty : step (.quotes delimiter false) delimiter =
        some ([], .quotes delimiter true) := by rw [step, if_pos rfl]
    rw [List.nil_append, tokensFrom_of_step hempty]
    cases rest with
    | nil => rfl
    | cons c rest =>
      have hne : c ≠ delimiter := fun heq => hrest (congrArg some heq)
      have hstep : step (.quotes delimiter true) c = emit (.string []) c := by
        rw [step, if_neg hne]
      have hbetween : step .between c = start c := rfl
      rw [tokensFrom_cons, tokensFrom_cons, hstep, hbetween, emit]
      cases start c with
      | none => rfl
      | some next =>
        simp only [Option.map_some, Option.bind_some, Option.map_map]
        rfl
  | cons c value =>
    rw [List.forall_mem_cons] at h
    rw [List.cons_append, tokensFrom_of_step (step_quotes_of_plain h.1),
      tokensFrom_string_plain h.2, Option.map_map]
    rfl

def InLiteral (delimiter : UInt8) : State → Prop
  | .quotes d _ => d = delimiter
  | .string d _ _ _ => d = delimiter
  | .escape d _ _ => d = delimiter
  | .codepoint d _ _ _ _ => d = delimiter
  | _ => False

/-- The length of the value so far, with what the quotes and the digits read may add to it. -/
def weight : State → ℕ
  | .string _ _ value closing => value.length + closing
  | .escape _ _ value => value.length
  | .codepoint _ _ value left _ => value.length + (4 - left)
  | _ => 0

/-- A byte in a literal goes on with it and adds no more than itself, or it is the end of
the literal: its last quote, unless the literal is empty. -/
def StepInLiteral (delimiter c : UInt8) (weightBefore : ℕ) (next : List Token × State) : Prop :=
  (next.1 = [] ∧ InLiteral delimiter next.2 ∧ weight next.2 ≤ weightBefore + 1) ∨
    ∃ value more, next.1 = .string value :: more ∧
      (value = [] ∨ c = delimiter ∧ value.length ≤ weightBefore)

theorem content_inLiteral {long : Bool} {value : List UInt8} {c : UInt8}
    {next : List Token × State} (h : content delimiter long value c = some next)
    {weightBefore : ℕ} (hweight : value.length ≤ weightBefore) :
    StepInLiteral delimiter c weightBefore next := by
  left
  unfold content at h
  split at h
  · obtain rfl := Option.some.inj h
    exact ⟨rfl, rfl, Nat.le_succ_of_le hweight⟩
  · split at h
    · cases h
    · obtain rfl := Option.some.inj h
      refine ⟨rfl, rfl, ?_⟩
      simpa [weight] using hweight

theorem encode?_length {code : ℕ} {character : List UInt8} (h : encode? code = some character) :
    character.length ≤ 4 := by
  unfold encode? at h
  split at h
  · obtain rfl := Option.some.inj h
    rw [String.length_utf8EncodeChar]
    exact Char.utf8Size_le_four _
  · cases h

theorem step_codepoint_inLiteral {long : Bool} {value : List UInt8} {left code : ℕ} {c : UInt8}
    {next : List Token × State}
    (h : step (.codepoint delimiter long value left code) c = some next) :
    StepInLiteral delimiter c (weight (.codepoint delimiter long value left code)) next := by
  left
  obtain ⟨digit, _, h⟩ := Option.bind_eq_some_iff.mp h
  by_cases hlast : left ≤ 1
  · rw [if_pos hlast] at h
    obtain ⟨character, hcharacter, h⟩ := Option.bind_eq_some_iff.mp h
    obtain rfl := Option.some.inj h
    have hlength := encode?_length hcharacter
    refine ⟨rfl, rfl, ?_⟩
    simp only [weight, List.length_append]
    omega
  · rw [if_neg hlast] at h
    obtain rfl := Option.some.inj h
    refine ⟨rfl, rfl, ?_⟩
    simp only [weight]
    omega

theorem step_inLiteral {state : State} (hstate : InLiteral delimiter state) {c : UInt8}
    {next : List Token × State} (h : step state c = some next) :
    StepInLiteral delimiter c (weight state) next := by
  cases state with
  | quotes d two =>
    obtain rfl : d = delimiter := hstate
    cases two with
    | false =>
      rw [step] at h
      split at h
      · obtain rfl := Option.some.inj h
        exact Or.inl ⟨rfl, rfl, Nat.zero_le _⟩
      · exact content_inLiteral h (Nat.le_refl 0)
    | true =>
      rw [step] at h
      split at h
      · obtain rfl := Option.some.inj h
        exact Or.inl ⟨rfl, rfl, Nat.zero_le _⟩
      · obtain ⟨first, _, hnext⟩ := Option.map_eq_some_iff.mp h
        exact Or.inr ⟨[], first.1, by rw [← hnext], Or.inl rfl⟩
  | string d long value closing =>
    obtain rfl : d = delimiter := hstate
    cases long with
    | false =>
      rw [step] at h
      split at h
      · obtain rfl := Option.some.inj h
        exact Or.inr ⟨value, [], rfl, Or.inr ⟨‹_›, Nat.le_add_right _ _⟩⟩
      · exact content_inLiteral h (Nat.le_add_right _ _)
    | true =>
      rw [step] at h
      split at h
      · split at h
        · obtain rfl := Option.some.inj h
          exact Or.inr ⟨value, [], rfl, Or.inr ⟨‹_›, Nat.le_add_right _ _⟩⟩
        · obtain rfl := Option.some.inj h
          exact Or.inl ⟨rfl, rfl, Nat.le_refl _⟩
      · exact content_inLiteral h (by simp [weight])
  | escape d long value =>
    obtain rfl : d = delimiter := hstate
    rw [step] at h
    split at h
    · obtain rfl := Option.some.inj h
      exact Or.inl ⟨rfl, rfl, by simp [weight]⟩
    · split at h
      · obtain rfl := Option.some.inj h
        exact Or.inl ⟨rfl, rfl, Nat.le_succ _⟩
      · split at h
        · obtain rfl := Option.some.inj h
          exact Or.inl ⟨rfl, rfl, Nat.le_succ _⟩
        · cases h
  | codepoint d long value left code =>
    obtain rfl : d = delimiter := hstate
    exact step_codepoint_inLiteral h
  | _ => exact hstate.elim

/-- The value of a literal is no longer than the text up to the quote that ends it. -/
theorem literal_length {state : State} (hstate : InLiteral delimiter state)
    {text value : List UInt8} {more : List Token}
    (h : tokensFrom state text = some (.string value :: more)) :
    value = [] ∨ ∃ before behind, text = before ++ delimiter :: behind ∧
      value.length ≤ weight state + before.length := by
  induction text generalizing state with
  | nil =>
    left
    obtain ⟨last, hfinish, h⟩ := Option.bind_eq_some_iff.mp h
    obtain rfl : last = .string value :: more := Option.some.inj h
    cases state with
    | quotes d two =>
      cases two with
      | false => cases hfinish
      | true =>
        cases hfinish
        rfl
    | string d long _ _ => cases hfinish
    | escape d long _ => cases hfinish
    | codepoint d long _ _ _ => cases hfinish
    | _ => exact hstate.elim
  | cons c text ih =>
    rw [tokensFrom_cons] at h
    obtain ⟨next, hstep, h⟩ := Option.bind_eq_some_iff.mp h
    obtain ⟨rest, hrest, htokens⟩ := Option.map_eq_some_iff.mp h
    rcases step_inLiteral hstate hstep with ⟨hnone, hnext, hweight⟩ |
      ⟨first, others, hemitted, hend⟩
    · rw [hnone, List.nil_append] at htokens
      rw [htokens] at hrest
      rcases ih hnext hrest with hnil | ⟨before, behind, hsplit, hlength⟩
      · exact Or.inl hnil
      · refine Or.inr ⟨c :: before, behind, by rw [hsplit, List.cons_append], ?_⟩
        rw [List.length_cons]
        omega
    · rw [hemitted, List.cons_append] at htokens
      obtain rfl := Token.string.inj (List.cons.inj htokens).1
      rcases hend with hnil | ⟨rfl, hlength⟩
      · exact Or.inl hnil
      · exact Or.inr ⟨[], text, rfl, hlength⟩

/-- A literal that goes on after a byte that is not plain in its text is shorter than the
text between its quotes. -/
theorem not_denotes {state : State} (hstate : InLiteral delimiter state) {behind rest : List UInt8}
    (hrest : delimiter ∉ rest) {value : List UInt8} {more : List Token}
    (h : tokensFrom state (behind ++ delimiter :: rest) = some (.string value :: more))
    (hlength : weight state + behind.length < value.length) : False := by
  rcases literal_length hstate h with rfl | ⟨before, after, hsplit, hvalue⟩
  · exact absurd hlength (Nat.not_lt_zero _)
  · have hbefore : before.length ≤ behind.length := by
      by_contra hlt
      rcases List.append_eq_append_iff.mp hsplit with ⟨between, hbetween, hdelimiter⟩ |
        ⟨between, hbetween, hdelimiter⟩
      · cases between with
        | nil =>
          rw [hbetween, List.append_nil] at hlt
          exact hlt (Nat.le_refl _)
        | cons first between =>
          have hmem : delimiter ∈ rest := by
            rw [(List.cons.inj hdelimiter).2]
            simp
          exact hrest hmem
      · rw [hbetween, List.length_append] at hlt
        exact hlt (Nat.le_add_right _ _)
    omega

theorem content_of_not_plain {c : UInt8} (h : isPlain delimiter c = false) (hne : c ≠ delimiter)
    {value : List UInt8} {next : List Token × State}
    (hstep : content delimiter false value c = some next) :
    next = ([], .escape delimiter false value) := by
  unfold content at hstep
  split at hstep
  · exact (Option.some.inj hstep).symm
  · split at hstep
    · cases hstep
    · simp_all [isPlain]

/-- Content that is not plain makes the literal shorter than its text. -/
theorem not_denotes_of_content {state : State} {c : UInt8} {value text rest whole : List UInt8}
    {more : List Token} (hcontent : step state c = content delimiter false value c)
    (hplain : isPlain delimiter c = false) (hquote : c ≠ delimiter) (hrest : delimiter ∉ rest)
    (h : tokensFrom state (c :: (text ++ delimiter :: rest)) = some (.string whole :: more))
    (hlength : value.length + text.length < whole.length) : False := by
  rw [tokensFrom_cons] at h
  obtain ⟨next, hstep, _⟩ := Option.bind_eq_some_iff.mp h
  obtain rfl := content_of_not_plain hplain hquote (hcontent.symm.trans hstep)
  rw [← tokensFrom_cons, tokensFrom_of_silent hstep] at h
  have hin : InLiteral delimiter (.escape delimiter false value) := rfl
  exact not_denotes hin hrest h hlength

theorem plain_of_string {text value rest : List UInt8} (hrest : delimiter ∉ rest)
    {more : List Token}
    (h : tokensFrom (.string delimiter false value 0) (text ++ delimiter :: rest) =
      some (.string (value ++ text) :: more)) : ∀ c ∈ text, isPlain delimiter c = true := by
  induction text generalizing value with
  | nil => exact fun c hc => absurd hc List.not_mem_nil
  | cons c text ih =>
    rw [List.cons_append] at h
    have hlength : value.length + text.length < (value ++ c :: text).length := by simp
    cases hplain : isPlain delimiter c with
    | true =>
      have hsplit := List.append_cons value c text
      rw [tokensFrom_of_silent (step_string_of_plain hplain value), hsplit] at h
      exact List.forall_mem_cons.mpr ⟨hplain, ih h⟩
    | false =>
      exfalso
      by_cases hquote : c = delimiter
      · have hstep : step (.string delimiter false value 0) c =
            some ([.string value], .between) := by rw [step, if_pos hquote]
        rw [tokensFrom_of_step hstep] at h
        obtain ⟨tokens, _, heq⟩ := Option.map_eq_some_iff.mp h
        have hvalue := Token.string.inj (List.cons.inj heq).1
        rw [← hvalue] at hlength
        omega
      · have hcontent : step (.string delimiter false value 0) c =
            content delimiter false value c := by rw [step, if_neg hquote]
        exact not_denotes_of_content hcontent hplain hquote hrest h hlength

/-- A quoted text is the literal of itself only when it is plain. -/
theorem plain_of_quotes {text rest : List UInt8} (hrest : delimiter ∉ rest) {more : List Token}
    (h : tokensFrom (.quotes delimiter false) (text ++ delimiter :: rest) =
      some (.string text :: more)) : ∀ c ∈ text, isPlain delimiter c = true := by
  cases text with
  | nil => exact fun c hc => absurd hc List.not_mem_nil
  | cons c text =>
    rw [List.cons_append] at h
    have hlength : 0 + text.length < (c :: text).length := by simp
    cases hplain : isPlain delimiter c with
    | true =>
      rw [tokensFrom_of_silent (step_quotes_of_plain hplain)] at h
      exact List.forall_mem_cons.mpr ⟨hplain, @plain_of_string delimiter text [c] rest hrest more h⟩
    | false =>
      exfalso
      by_cases hquote : c = delimiter
      · have hstep : step (.quotes delimiter false) c = some ([], .quotes delimiter true) := by
          rw [step, if_pos hquote]
        rw [tokensFrom_of_silent hstep] at h
        have hin : InLiteral delimiter (.quotes delimiter true) := rfl
        exact not_denotes hin hrest h hlength
      · have hcontent : step (.quotes delimiter false) c = content delimiter false [] c := by
          rw [step, if_neg hquote]
        exact not_denotes_of_content hcontent hplain hquote hrest h hlength

end Literals

end Keto.Library.Sparql
