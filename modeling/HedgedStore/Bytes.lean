/-! Byte strings. -/
namespace HedgedStore

abbrev Bytes := List UInt8

end HedgedStore
