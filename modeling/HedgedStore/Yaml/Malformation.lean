/-! Why a text is not one well-formed YAML document. -/
namespace HedgedStore.Yaml

inductive Malformation where
  | unacceptableCharacter
  | unknownDirective
  | malformedDirective
  | repeatedDirective
  | unsupportedVersion
  | tabIndentation
  | unexpectedCharacter
  | unexpectedColon
  | malformedAnchor
  | malformedTag
  | undefinedTagHandle
  | malformedBlockHeader
  | unterminatedQuote
  | markerInsideQuote
  | unknownEscape
  | misplacedSequenceEntry
  | misplacedKey
  | misplacedValue
  /-- A line at the indentation of a block mapping holds no key. -/
  | missingColon
  | expectedDocumentStart
  | expectedNode
  | expectedSequenceEntry
  | expectedKey
  | expectedSeparator
  | undefinedAnchor
  | severalDocuments
deriving DecidableEq, Repr

def Malformation.message : Malformation → String
  | unacceptableCharacter => "control characters are not allowed"
  | unknownDirective => "found unknown directive name"
  | malformedDirective => "did not find expected comment or line break behind a directive"
  | repeatedDirective => "found duplicate directive"
  | unsupportedVersion => "found incompatible YAML document"
  | tabIndentation => "found a tab character where an indentation space is expected"
  | unexpectedCharacter => "found character that cannot start any token"
  | unexpectedColon => "found unexpected ':'"
  | malformedAnchor => "did not find expected alphabetic or numeric character"
  | malformedTag => "did not find expected tag"
  | undefinedTagHandle => "found undefined tag handle"
  | malformedBlockHeader => "did not find expected comment or line break behind a block header"
  | unterminatedQuote => "found unexpected end of stream"
  | markerInsideQuote => "found unexpected document indicator"
  | unknownEscape => "found unknown escape character"
  | misplacedSequenceEntry => "block sequence entries are not allowed in this context"
  | misplacedKey => "mapping keys are not allowed in this context"
  | misplacedValue => "mapping values are not allowed in this context"
  | missingColon => "could not find expected ':'"
  | expectedDocumentStart => "did not find expected <document start>"
  | expectedNode => "did not find expected node content"
  | expectedSequenceEntry => "did not find expected '-' indicator"
  | expectedKey => "did not find expected key"
  | expectedSeparator => "did not find expected ',' or closing bracket"
  | undefinedAnchor => "unknown anchor"
  | severalDocuments => "more than one document is not supported"

end HedgedStore.Yaml
