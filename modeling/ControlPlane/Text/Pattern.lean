import ControlPlane.Text.Alphanumeric
import ControlPlane.Text.Quoted

/-!
# Patterns

Regular expressions over texts: literals, `.`, character sets, groups, alternatives, bounded and
unbounded repetition, and anchors.  `Pattern.parse` reads the written form and `Pattern.ends` gives every
position at which a match that starts at a given position can end; a text is searched or matched as a
whole by asking for such positions.
-/
namespace ControlPlane.Text

/-! ## §1. Character sets -/

inductive CharClass where
  | single (c : Char)
  | range (first last : Char)
  | digit (positive : Bool)
  | blank (positive : Bool)
  /-- Letters, digits and the underscore, or everything else. -/
  | word (positive : Bool)
  deriving DecidableEq, Repr

/-- Letters and numbers of every script, and the underscore. -/
def isWordChar (c : Char) : Bool := c == '_' || isAlphanumeric c

def CharClass.holds : CharClass → Char → Bool
  | single d, c => c == d
  | range first last, c => first ≤ c && c ≤ last
  | digit positive, c => (decimalValue? c).isSome == positive
  | blank positive, c => isBlank c == positive
  | word positive, c => isWordChar c == positive

/-! ## §2. Patterns -/

inductive Greed where
  /-- As often as it can. -/
  | most
  | least
  /-- As often as it can, and never less often for the sake of what follows. -/
  | all
  deriving DecidableEq, Repr

/-- A regular expression. -/
inductive Pattern where
  /-- Matches without consuming anything. -/
  | empty
  | char (c : Char)
  | any
  | oneOf (negated : Bool) (items : List CharClass)
  | seq (first second : Pattern)
  | alt (first second : Pattern)
  /-- At least `min` and at most `max` times; without `max` any number of times. -/
  | repeated (body : Pattern) (min : Nat) (max : Option Nat) (greed : Greed)
  /-- The start of the text. -/
  | start
  | finish
  | absoluteFinish
  /-- Between a word character and another one, or nowhere such; the empty text has neither place. -/
  | boundary (positive : Bool)
  deriving Repr

namespace Pattern

/-! ## §3. Matching -/

/-- Applies a step to the positions that were reached last until nothing new is reached, `fuel` times at most. -/
def closure (step : Nat → List Nat) : Nat → List Nat → List Nat → List Nat
  | 0, last, reached => last ++ reached
  | fuel + 1, last, reached =>
    if last.isEmpty then reached
    else
      let reached := last ++ reached
      closure step fuel ((last.flatMap step).eraseDups.filter fun i => !reached.contains i) reached

/-- Applies a step exactly `n` times. -/
def iterate (step : Nat → List Nat) : Nat → List Nat → List Nat
  | 0, reached => reached
  | n + 1, reached => iterate step n (reached.flatMap step).eraseDups

/-- Applies a step between zero and `n` times. -/
def iterateUpTo (step : Nat → List Nat) : Nat → List Nat → List Nat
  | 0, reached => reached
  | n + 1, reached => (reached ++ iterateUpTo step n (reached.flatMap step).eraseDups).eraseDups

/-- A number of repetitions after which one more changes nothing: a repetition that matches a part of the
text moves on, and one that matches nothing can be done again. -/
def enough (s : Array Char) (n : Nat) : Nat := min n (s.size + 2)

/-- Takes the first position that a step reaches, exactly `n` times. -/
def firstAfter (step : Nat → List Nat) : Nat → Nat → Option Nat
  | 0, i => some i
  | n + 1, i => (step i).head?.bind (firstAfter step n)

/-- Takes the first position that a step reaches while that moves on, `n` times at most. -/
def lastAfter (step : Nat → List Nat) : Nat → Nat → Nat
  | 0, i => i
  | n + 1, i => match (step i).head? with
    | some j => if i < j then lastAfter step n j else i
    | none => i

/-- Whether position `i` of a text separates a word character from another character. -/
def atBoundary (s : Array Char) (i : Nat) : Bool :=
  let before := i != 0 && ((s[i - 1]?).map isWordChar).getD false
  let after := ((s[i]?).map isWordChar).getD false
  before != after

/-- The positions at which a match that starts at `i` can end, those that are tried first in front. -/
def ends (s : Array Char) : Pattern → Nat → List Nat
  | empty, i => [i]
  | char c, i => if s[i]? == some c then [i + 1] else []
  | any, i => match s[i]? with
    | some c => if c == '\n' then [] else [i + 1]
    | none => []
  | oneOf negated items, i => match s[i]? with
    | some c => if (items.any fun k => k.holds c) != negated then [i + 1] else []
    | none => []
  | seq p q, i => ((ends s p i).flatMap (ends s q)).eraseDups
  | alt p q, i => (ends s p i ++ ends s q i).eraseDups
  | repeated p min max greed, i =>
    let more := (max.map fun m => enough s (m - min)).getD (s.size + 1)
    match greed with
    | .all => ((firstAfter (ends s p) (enough s min) i).map (lastAfter (ends s p) more)).toList
    | _ =>
      let least := iterate (ends s p) (enough s min) [i]
      let reached := match max with
        | some _ => iterateUpTo (ends s p) more least
        | none => closure (ends s p) more least []
      reached.mergeSort fun a b => if greed == .most then b ≤ a else a ≤ b
  | start, i => if i == 0 then [i] else []
  | finish, i => if i == s.size || (i + 1 == s.size && s[i]? == some '\n') then [i] else []
  | absoluteFinish, i => if i == s.size then [i] else []
  | boundary positive, i => if s.size != 0 && atBoundary s i == positive then [i] else []

def search (p : Pattern) (s : String) : Bool :=
  let cs := s.toList.toArray
  (List.range (cs.size + 1)).any fun i => !(ends cs p i).isEmpty

def matchesAll (p : Pattern) (s : String) : Bool :=
  let cs := s.toList.toArray
  (ends cs p 0).contains cs.size

/-! ## §4. Written form -/

/-- Why a text writes no pattern. -/
inductive Fault where
  | malformed
  | tooLarge
  | count (digits : List Char) (fault : NumeralFault)
  deriving DecidableEq, Repr

def escape (c : Char) : Except Fault Pattern :=
  if c == 'd' then .ok (oneOf false [.digit true])
  else if c == 'D' then .ok (oneOf false [.digit false])
  else if c == 's' then .ok (oneOf false [.blank true])
  else if c == 'S' then .ok (oneOf false [.blank false])
  else if c == 'w' then .ok (oneOf false [.word true])
  else if c == 'W' then .ok (oneOf false [.word false])
  else if c == 'A' then .ok start
  else if c == 'Z' then .ok absoluteFinish
  else if c == 'b' then .ok (boundary true)
  else if c == 'B' then .ok (boundary false)
  else if c == 'n' then .ok (char '\n')
  else if c == 't' then .ok (char '\t')
  else if c == 'r' then .ok (char '\r')
  else if c == 'f' then .ok (char (Char.ofNat 12))
  else if c == 'v' then .ok (char (Char.ofNat 11))
  else if c == 'a' then .ok (char (Char.ofNat 7))
  else if c.isAlphanum then .error .malformed
  else .ok (char c)

def classEscape (c : Char) : Except Fault CharClass :=
  if c == 'b' then .ok (.single (Char.ofNat 8))
  else match escape c with
    | .ok (oneOf false [k]) => .ok k
    | .ok (char d) => .ok (.single d)
    | _ => .error .malformed

def readClassItem : List Char → Except Fault (CharClass × List Char)
  | [] => .error .malformed
  | c :: rest =>
    if c == backslash then
      match rest with
      | e :: rest => (classEscape e).map fun k => (k, rest)
      | [] => .error .malformed
    else .ok (.single c, rest)

/-- The items of a character set up to its closing bracket, with fuel for their number.  A bracket that
comes first is an item. -/
def readClass : Nat → Bool → List Char → Except Fault (List CharClass × List Char)
  | 0, _, _ => .error .malformed
  | _, false, ']' :: rest => .ok ([], rest)
  | fuel + 1, _, cs => do
    let (low, rest) ← readClassItem cs
    match rest with
    | '-' :: after =>
      match after with
      | [] => throw .malformed
      | ']' :: rest => return ([low, .single '-'], rest)
      | _ => do
        let (high, rest) ← readClassItem after
        match low, high with
        | .single a, .single b =>
          if b < a then throw .malformed
          else do
            let (more, rest) ← readClass fuel false rest
            return (.range a b :: more, rest)
        | _, _ => throw .malformed
    | _ => do
      let (more, rest) ← readClass fuel false rest
      return (low :: more, rest)

/-- No repetition can be asked for so often. -/
def countLimit : Nat := 4294967295

def countOf (digits : List Char) : Except Fault (Option Nat) :=
  if digits.isEmpty then .ok none
  else do
    let n ← (numeral digits).mapError (Fault.count digits)
    if countLimit ≤ n then throw .tooLarge else return some n

/-- The bounds of a repetition and what follows it; none when the characters are no repetition, and a
fault when they are a wrong one. -/
def readRepeat (cs : List Char) : Except Fault (Option (Nat × Option Nat × List Char)) :=
  match cs with
  | '*' :: rest => .ok (some (0, none, rest))
  | '+' :: rest => .ok (some (1, none, rest))
  | '?' :: rest => .ok (some (0, some 1, rest))
  | '\x7b' :: rest =>
    match rest with
    | '\x7d' :: _ => .ok none
    | _ =>
      let (low, rest) := rest.span Char.isDigit
      let (high, rest) := match rest with
        | ',' :: rest => rest.span Char.isDigit
        | _ => (low, rest)
      match rest with
      | '\x7d' :: rest => do
        let min := (← countOf low).getD 0
        match ← countOf high with
        | some m => if m < min then throw .malformed else return some (min, some m, rest)
        | none => return some (min, none, rest)
      | _ => .ok none
  | _ => .ok none

/-- How often a repetition repeats, and what follows. -/
def readGreed : List Char → Greed × List Char
  | '?' :: rest => (.least, rest)
  | '+' :: rest => (.all, rest)
  | rest => (.most, rest)

/-- Whether a pattern is a place rather than characters, which cannot be repeated. -/
def isAnchor : Pattern → Bool
  | start => true
  | finish => true
  | absoluteFinish => true
  | boundary _ => true
  | _ => false

/-- Drops the name or the mark that opens a group; look-around and flags are refused. -/
def groupBody : List Char → Except Fault (List Char)
  | '?' :: ':' :: rest => .ok rest
  | '?' :: 'P' :: '<' :: rest => match rest.dropWhile (· != '>') with
    | _ :: after => .ok after
    | [] => .error .malformed
  | '?' :: _ => .error .malformed
  | rest => .ok rest

mutual
def readAlternatives : Nat → List Char → Except Fault (Pattern × List Char)
  | 0, _ => .error .malformed
  | fuel + 1, cs => do
    let (p, rest) ← readSequence fuel cs
    match rest with
    | '|' :: rest => do
      let (q, rest) ← readAlternatives fuel rest
      return (alt p q, rest)
    | _ => return (p, rest)

/-- A sequence of repeated items up to the end, a bar or a closing parenthesis. -/
def readSequence : Nat → List Char → Except Fault (Pattern × List Char)
  | 0, _ => .error .malformed
  | fuel + 1, cs =>
    match cs with
    | [] => .ok (empty, [])
    | '|' :: _ => .ok (empty, cs)
    | ')' :: _ => .ok (empty, cs)
    | _ => do
      let (item, rest) ← readItem fuel cs
      let (item, rest) ← (do match ← readRepeat rest with
        | none => return (item, rest)
        | some (min, max, rest) =>
          if item.isAnchor then throw .malformed
          let (greed, rest) := readGreed rest
          match ← readRepeat rest with
          | none => return (repeated item min max greed, rest)
          | some _ => throw .malformed : Except Fault (Pattern × List Char))
      let (more, rest) ← readSequence fuel rest
      return (seq item more, rest)

def readItem : Nat → List Char → Except Fault (Pattern × List Char)
  | 0, _ => .error .malformed
  | _, [] => .error .malformed
  | fuel + 1, c :: rest =>
    if c == backslash then
      match rest with
      | e :: rest => (escape e).map fun p => (p, rest)
      | [] => .error .malformed
    else if c == '.' then .ok (any, rest)
    else if c == '^' then .ok (start, rest)
    else if c == '$' then .ok (finish, rest)
    else if c == '[' then do
      let (negated, body) := match rest with
        | '^' :: rest => (true, rest)
        | _ => (false, rest)
      let (items, rest) ← readClass (body.length + 1) true body
      return (oneOf negated items, rest)
    else if c == '(' then do
      let body ← groupBody rest
      let (p, rest) ← readAlternatives fuel body
      match rest with
      | ')' :: rest => return (seq empty p, rest)
      | _ => throw .malformed
    else do
      match ← readRepeat (c :: rest) with
      | none => return (char c, rest)
      | some _ => throw .malformed
end

def parse (s : String) : Except Fault Pattern := do
  let cs := s.toList
  match ← readAlternatives (3 * cs.length + 3) cs with
  | (p, []) => return p
  | _ => throw .malformed

end Pattern

end ControlPlane.Text
