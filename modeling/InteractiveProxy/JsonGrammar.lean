import Mathlib.Data.UInt

/-! The grammar of JSON texts, as syntax trees over characters. Every place where blanks may stand
is a field of the tree, so that a tree is a text together with its reading; what a text means here
is what a guard counts in it: tokens, nesting, elements, members, and the characters that its
strings stand for. -/
namespace InteractiveProxy.JsonGrammar

inductive Blank
  | space
  | tab
  | lineFeed
  | carriageReturn

def Blank.char : Blank → Char
  | space => ' '
  | tab => '\t'
  | lineFeed => '\n'
  | carriageReturn => '\r'

def blankChars (ws : List Blank) : List Char := ws.map Blank.char

def digitChar (d : Fin 10) : Char := Char.ofNat (0x30 + d.val)

structure Digits where
  first : Fin 10
  rest : List (Fin 10)

@[simp] def Digits.chars (ds : Digits) : List Char := digitChar ds.first :: ds.rest.map digitChar

inductive Whole
  | zero
  | digits (first : Fin 9) (rest : List (Fin 10))

def Whole.chars : Whole → List Char
  | zero => ['0']
  | digits first rest => digitChar first.succ :: rest.map digitChar

inductive Sign
  | plus
  | minus

def Sign.char : Sign → Char
  | plus => '+'
  | minus => '-'

structure Exponent where
  upper : Bool
  sign : Option Sign
  digits : Digits

@[simp] def Exponent.chars (e : Exponent) : List Char :=
  (if e.upper then 'E' else 'e') :: (e.sign.toList.map Sign.char ++ e.digits.chars)

structure Number where
  minus : Bool
  whole : Whole
  frac : Option Digits
  exp : Option Exponent

@[simp] def Number.fracChars (frac : Option Digits) : List Char :=
  frac.elim [] fun ds => '.' :: ds.chars

@[simp] def Number.expChars (exp : Option Exponent) : List Char := exp.elim [] Exponent.chars

def Number.chars (n : Number) : List Char :=
  (if n.minus then ['-'] else []) ++ n.whole.chars ++ fracChars n.frac ++ expChars n.exp

inductive Literal
  | true
  | false
  | null

def Literal.chars : Literal → List Char
  | true => ['t', 'r', 'u', 'e']
  | false => ['f', 'a', 'l', 's', 'e']
  | null => ['n', 'u', 'l', 'l']

inductive HexDigit
  | digit (d : Fin 10)
  | lower (d : Fin 6)
  | upper (d : Fin 6)

def HexDigit.char : HexDigit → Char
  | digit d => digitChar d
  | lower d => Char.ofNat (0x61 + d.val)
  | upper d => Char.ofNat (0x41 + d.val)

def HexDigit.value : HexDigit → ℕ
  | digit d => d.val
  | lower d => 10 + d.val
  | upper d => 10 + d.val

lemma HexDigit.value_lt (d : HexDigit) : d.value < 16 := by
  cases d with
  | digit d => simp only [HexDigit.value]; omega
  | lower d => simp only [HexDigit.value]; omega
  | upper d => simp only [HexDigit.value]; omega

structure CodeUnit where
  a : HexDigit
  b : HexDigit
  c : HexDigit
  d : HexDigit

variable (u : CodeUnit)

def CodeUnit.chars : List Char := [u.a.char, u.b.char, u.c.char, u.d.char]

def CodeUnit.value (u : CodeUnit) : ℕ :=
  ((u.a.value * 16 + u.b.value) * 16 + u.c.value) * 16 + u.d.value

lemma CodeUnit.value_lt : u.value < 0x10000 := by
  have ha := u.a.value_lt
  have hb := u.b.value_lt
  have hc := u.c.value_lt
  have hd := u.d.value_lt
  simp only [CodeUnit.value]
  omega

def CodeUnit.High : Prop := 0xD800 ≤ u.value ∧ u.value ≤ 0xDBFF
  deriving Decidable
def CodeUnit.Low : Prop := 0xDC00 ≤ u.value ∧ u.value ≤ 0xDFFF
  deriving Decidable

/-- The character of a code unit on its own; half of a pair stands for the replacement character. -/
def CodeUnit.alone : Char := if u.High ∨ u.Low then '�' else Char.ofNat u.value

def CodeUnit.pair (high low : CodeUnit) : Char :=
  Char.ofNat ((high.value - 0xD800) * 0x400 + (low.value - 0xDC00) + 0x10000)

inductive Escape
  | quote
  | backslash
  | slash
  | backspace
  | formFeed
  | lineFeed
  | carriageReturn
  | tab

def Escape.letter : Escape → Char
  | quote => '"'
  | backslash => '\\'
  | slash => '/'
  | backspace => 'b'
  | formFeed => 'f'
  | lineFeed => 'n'
  | carriageReturn => 'r'
  | tab => 't'

def Escape.char : Escape → Char
  | quote => '"'
  | backslash => '\\'
  | slash => '/'
  | backspace => '\x08'
  | formFeed => '\x0C'
  | lineFeed => '\n'
  | carriageReturn => '\r'
  | tab => '\t'

def Unescaped (c : Char) : Prop := 0x20 ≤ c.val ∧ c ≠ '"' ∧ c ≠ '\\'
  deriving Decidable

inductive StrChar
  | plain (c : Char) (h : Unescaped c)
  | short (e : Escape)
  | unit (u : CodeUnit)

@[simp] def StrChar.chars : StrChar → List Char
  | plain c _ => [c]
  | short e => ['\\', e.letter]
  | unit u => '\\' :: 'u' :: u.chars

/-- The character that an item stands for on its own. -/
@[simp] def StrChar.char : StrChar → Char
  | plain c _ => c
  | short e => e.char
  | unit u => u.alone

@[simp] def itemChars (items : List StrChar) : List Char := items.flatMap StrChar.chars

@[simp] def stringChars (items : List StrChar) : List Char := '"' :: (itemChars items ++ ['"'])

/-- What a string stands for: adjacent halves of a surrogate pair are one character. -/
@[simp] def decode : List StrChar → List Char
  | [] => []
  | .unit u :: .unit v :: rest =>
    if u.High ∧ v.Low then u.pair v :: decode rest else u.alone :: decode (.unit v :: rest)
  | x :: rest => x.char :: decode rest

structure Name where
  pre : List Blank
  items : List StrChar
  post : List Blank

def Name.chars (n : Name) : List Char :=
  blankChars n.pre ++ stringChars n.items ++ blankChars n.post

mutual

inductive Value
  | literal (l : Literal)
  | number (n : Number)
  | string (items : List StrChar)
  | emptyArray (ws : List Blank)
  | array (es : Elements)
  | emptyObject (ws : List Blank)
  | object (ms : Members)

inductive Element
  | mk (pre : List Blank) (value : Value) (post : List Blank)

inductive Elements
  | one (e : Element)
  | snoc (es : Elements) (e : Element)

inductive Members
  | one (name : Name) (e : Element)
  | snoc (ms : Members) (name : Name) (e : Element)

end

mutual

@[simp] def Value.chars : Value → List Char
  | .literal l => l.chars
  | .number n => n.chars
  | .string items => stringChars items
  | .emptyArray ws => '[' :: (blankChars ws ++ [']'])
  | .array es => '[' :: (es.chars ++ [']'])
  | .emptyObject ws => '\x7b' :: (blankChars ws ++ ['\x7d'])
  | .object ms => '\x7b' :: (ms.chars ++ ['\x7d'])

@[simp] def Element.chars : Element → List Char
  | .mk pre value post => blankChars pre ++ value.chars ++ blankChars post

def Elements.chars : Elements → List Char
  | .one e => e.chars
  | .snoc es e => es.chars ++ ',' :: e.chars

def Members.chars : Members → List Char
  | .one name e => name.chars ++ ':' :: e.chars
  | .snoc ms name e => ms.chars ++ ',' :: (name.chars ++ ':' :: e.chars)

end

mutual

/-- Tokens: scalars, member names, and the opening and closing of containers. -/
@[simp] def Value.tokens : Value → ℕ
  | .literal _ | .number _ | .string _ => 1
  | .emptyArray _ | .emptyObject _ => 2
  | .array es => es.tokens + 2
  | .object ms => ms.tokens + 2

@[simp] def Element.tokens : Element → ℕ
  | .mk _ value _ => value.tokens

@[simp] def Elements.tokens : Elements → ℕ
  | .one e => e.tokens
  | .snoc es e => es.tokens + e.tokens

@[simp] def Members.tokens : Members → ℕ
  | .one _ e => e.tokens + 1
  | .snoc ms _ e => ms.tokens + (e.tokens + 1)

end

mutual

@[simp] def Value.depth : Value → ℕ
  | .literal _ | .number _ | .string _ => 0
  | .emptyArray _ | .emptyObject _ => 1
  | .array es => es.depth + 1
  | .object ms => ms.depth + 1

@[simp] def Element.depth : Element → ℕ
  | .mk _ value _ => value.depth

@[simp] def Elements.depth : Elements → ℕ
  | .one e => e.depth
  | .snoc es e => max es.depth e.depth

@[simp] def Members.depth : Members → ℕ
  | .one _ e => e.depth
  | .snoc ms _ e => max ms.depth e.depth

end

def Elements.length : Elements → ℕ
  | .one _ => 1
  | .snoc es _ => es.length + 1

def utf8 (text : List Char) : List UInt8 := text.flatMap String.utf8EncodeChar

def decodedBytes (items : List StrChar) : List UInt8 := utf8 (decode items)

def Members.names : Members → List (List UInt8)
  | .one name _ => [decodedBytes name.items]
  | .snoc ms name _ => decodedBytes name.items :: ms.names

@[simp] lemma utf8_nil : utf8 [] = [] := rfl

@[simp] lemma utf8_append (s t : List Char) : utf8 (s ++ t) = utf8 s ++ utf8 t :=
  List.flatMap_append

@[simp] lemma utf8_cons (c : Char) (t : List Char) :
    utf8 (c :: t) = String.utf8EncodeChar c ++ utf8 t := rfl

end InteractiveProxy.JsonGrammar
