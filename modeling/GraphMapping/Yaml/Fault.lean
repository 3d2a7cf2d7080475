import GraphMapping.Yaml.Position

/-!
# Faults of a text

A text that cannot be read any further has a fault: what is wrong, where it shows, and what was being
read there since when.
-/

namespace GraphMapping.Yaml

/-- What is wrong with a text. -/
inductive Problem where
  /-- A character that no text may hold, after so many bytes. -/
  | control (offset : Nat)
  /-- The first character of no token. -/
  | start
  /-- A key of members, on one line, is not followed by a colon. -/
  | colon
  | itemPlace
  | keyPlace
  | valuePlace
  | directiveName
  | directiveCharacter
  | directiveUnknown
  | lineEnd
  | versionMark
  | versionDigits
  | versionLong
  | space
  | spaceOrBreak
  | anchorName
  | tagEnd
  | tagMark
  | tagText
  | tagEscape
  | tagLeading
  | tagTrailing
  | zeroIndent
  | tabInBlock
  | divider
  | unclosed
  | escape
  | hexadecimal
  | codePoint
  | plainColon
  | plainTab
  | documentStart
  | versionTwice
  | versionUnknown
  | tagTwice
  | tagUnknown
  | anchorUnknown
  | node
  | blockItem
  | blockKey
  | flowItem
  | flowMember
  | moreDocuments
deriving DecidableEq, Repr

/-- A problem in words. -/
def Problem.message : Problem → String
  | .control offset =>
      "control characters are not allowed" ++
        if offset = 0 then "" else " at position " ++ toString offset
  | .start => "found character that cannot start any token"
  | .colon => "could not find expected ':'"
  | .itemPlace => "block sequence entries are not allowed in this context"
  | .keyPlace => "mapping keys are not allowed in this context"
  | .valuePlace => "mapping values are not allowed in this context"
  | .directiveName => "could not find expected directive name"
  | .directiveCharacter => "found unexpected non-alphabetical character"
  | .directiveUnknown => "found unknown directive name"
  | .lineEnd => "did not find expected comment or line break"
  | .versionMark => "did not find expected digit or '.' character"
  | .versionDigits => "did not find expected version number"
  | .versionLong => "found extremely long version number"
  | .space => "did not find expected whitespace"
  | .spaceOrBreak => "did not find expected whitespace or line break"
  | .anchorName => "did not find expected alphabetic or numeric character"
  | .tagEnd => "did not find the expected '>'"
  | .tagMark => "did not find expected '!'"
  | .tagText => "did not find expected tag URI"
  | .tagEscape => "did not find URI escaped octet"
  | .tagLeading => "found an incorrect leading UTF-8 octet"
  | .tagTrailing => "found an incorrect trailing UTF-8 octet"
  | .zeroIndent => "found an indentation indicator equal to 0"
  | .tabInBlock => "found a tab character where an indentation space is expected"
  | .divider => "found unexpected document indicator"
  | .unclosed => "found unexpected end of stream"
  | .escape => "found unknown escape character"
  | .hexadecimal => "did not find expected hexadecimal number"
  | .codePoint => "found invalid Unicode character escape code"
  | .plainColon => "found unexpected ':'"
  | .plainTab => "found a tab character that violates indentation"
  | .documentStart => "did not find expected <document start>"
  | .versionTwice => "found duplicate %YAML directive"
  | .versionUnknown => "found incompatible YAML document"
  | .tagTwice => "found duplicate %TAG directive"
  | .tagUnknown => "found undefined tag handle"
  | .anchorUnknown => "unknown anchor"
  | .node => "did not find expected node content"
  | .blockItem => "did not find expected '-' indicator"
  | .blockKey => "did not find expected key"
  | .flowItem => "did not find expected ',' or ']'"
  | .flowMember => "did not find expected ',' or '\x7d'"
  | .moreDocuments => "deserializing from YAML containing more than one document is not supported"

/-- What is being read. -/
inductive Activity where
  | token
  | simpleKey
  | directive
  | version
  | tagDirective
  | tagDirectiveHandle
  | tagDirectiveName
  | tagDirectiveText
  | tag
  | tagText
  | anchor
  | reference
  | block
  | quoted
  | quotedEscape
  | plain
  | node
  | blockNode
  | flowNode
  | blockList
  | blockMembers
  | flowList
  | flowMembers
deriving DecidableEq, Repr

/-- An activity in words. -/
def Activity.message : Activity → String
  | .token => "while scanning for the next token"
  | .simpleKey => "while scanning a simple key"
  | .directive => "while scanning a directive"
  | .version => "while scanning a %YAML directive"
  | .tagDirective => "while scanning a %TAG directive"
  | .tagDirectiveHandle => "while scanning a tag directive"
  | .tagDirectiveName => "while parsing a tag directive"
  | .tagDirectiveText => "while parsing a %TAG directive"
  | .tag => "while scanning a tag"
  | .tagText => "while parsing a tag"
  | .anchor => "while scanning an anchor"
  | .reference => "while scanning an alias"
  | .block => "while scanning a block scalar"
  | .quoted => "while scanning a quoted scalar"
  | .quotedEscape => "while parsing a quoted scalar"
  | .plain => "while scanning a plain scalar"
  | .node => "while parsing a node"
  | .blockNode => "while parsing a block node"
  | .flowNode => "while parsing a flow node"
  | .blockList => "while parsing a block collection"
  | .blockMembers => "while parsing a block mapping"
  | .flowList => "while parsing a flow sequence"
  | .flowMembers => "while parsing a flow mapping"

/-- Why a text cannot be read any further.  An activity comes with the place where it began. -/
structure Fault where
  problem : Problem
  place : Position
  activity : Option (Activity × Position)
deriving DecidableEq, Repr

namespace Fault

/-- A fault of the whole text. -/
def ofText (problem : Problem) : Fault := ⟨problem, .start, none⟩

/-- A fault that shows at `place` in what began at `start`. -/
def during (activity : Activity) (start : Position) (problem : Problem) (place : Position) : Fault :=
  ⟨problem, place, some (activity, start)⟩

/-- A fault in words.  The place where an activity began is left out if the fault shows right there. -/
def message (f : Fault) : String :=
  f.problem.message ++ f.place.located ++
    match f.activity with
    | none => ""
    | some (activity, start) =>
        ", " ++ activity.message ++
          if start.line = f.place.line ∧ start.column = f.place.column then "" else start.located

end Fault

end GraphMapping.Yaml
