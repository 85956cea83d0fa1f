import FormatFuzz.Text.Digit
import FormatFuzz.Text.Quoted

namespace FormatFuzz

inductive PatternProblem
  | danglingEscape
  | badEscape (text : String)
  | incompleteEscape (text : String)
  | octalTooLarge (text : String)
  | unknownCharacterName (name : String)
  | openSet
  | badRange (first last : String)
  | nothingToRepeat
  | repeatedTwice
  | repeatOrder
  | noGroup (number : Nat)
  | groupStillOpen
  | groupZero
  | missing (what : String)
  | openName (close : String)
  | badName (name : String)
  | unknownName (name : String)
  | nameTaken (name : String) (number earlier : Nat)
  | unknownExtension (text : String)
  | openComment
  | openGroup
  | extraClose
  | patternEnds
  | manyBranches
  | lateFlags
  | unknownFlag
  | localeFlag
  | flagsClash
  | flagNotGlobalOn
  | flagNotGlobalOff
  | flagKindOff
  | flagOnAndOff
deriving DecidableEq, Repr

def PatternProblem.message : PatternProblem → String
  | danglingEscape => "bad escape (end of pattern)"
  | badEscape t => "bad escape " ++ t
  | incompleteEscape t => "incomplete escape " ++ t
  | octalTooLarge t => "octal escape value " ++ t ++ " outside of range 0-0o377"
  | unknownCharacterName n => "undefined character name " ++ Text.quoted n
  | openSet => "unterminated character set"
  | badRange a b => "bad character range " ++ a ++ "-" ++ b
  | nothingToRepeat => "nothing to repeat"
  | repeatedTwice => "multiple repeat"
  | repeatOrder => "min repeat greater than max repeat"
  | noGroup n => "invalid group reference " ++ toString n
  | groupStillOpen => "cannot refer to an open group"
  | groupZero => "bad group number"
  | missing what => "missing " ++ what
  | openName close => "missing " ++ close ++ ", unterminated name"
  | badName n => "bad character in group name " ++ Text.quoted n
  | unknownName n => "unknown group name " ++ Text.quoted n
  | nameTaken n number earlier =>
    "redefinition of group name " ++ Text.quoted n ++ " as group " ++ toString number ++
      "; was group " ++ toString earlier
  | unknownExtension t => "unknown extension ?" ++ t
  | openComment => "missing ), unterminated comment"
  | openGroup => "missing ), unterminated subpattern"
  | extraClose => "unbalanced parenthesis"
  | patternEnds => "unexpected end of pattern"
  | manyBranches => "conditional backref with more than two branches"
  | lateFlags => "global flags not at the start of the expression"
  | unknownFlag => "unknown flag"
  | localeFlag => "bad inline flags: cannot use 'L' flag with a str pattern"
  | flagsClash => "bad inline flags: flags 'a', 'u' and 'L' are incompatible"
  | flagNotGlobalOn => "bad inline flags: cannot turn on global flag"
  | flagNotGlobalOff => "bad inline flags: cannot turn off global flag"
  | flagKindOff => "bad inline flags: cannot turn off flags 'a', 'u' and 'L'"
  | flagOnAndOff => "bad inline flags: flag turned on and off"

/-- Why a text is no pattern: a problem at a position of it, a number of repetitions that is too large
or has too many digits, or a construct that no pattern is made of. -/
inductive PatternError
  | problem (what : PatternProblem) (position : Nat) (text : String)
  | repetitionTooLarge
  | tooManyDigits (digits : Nat)
  | unsupported
deriving DecidableEq, Repr

/-- A problem's position is told again as line and column if the text has several lines. -/
def PatternError.message : PatternError → String
  | problem what position text =>
    let start := what.message ++ " at position " ++ toString position
    let before := text.toList.take position
    if text.toList.contains '\n' then
      let column := (before.reverse.takeWhile (· != '\n')).length + 1
      start ++ " (line " ++ toString (before.count '\n' + 1) ++ ", column " ++ toString column ++ ")"
    else start
  | repetitionTooLarge => "the repetition number is too large"
  | tooManyDigits digits => Text.maxDigitsMessage (some digits)
  | unsupported => "unsupported pattern"

end FormatFuzz
