/-!
# Words

The bounds of whole numbers in 64 bits.
-/

namespace StubDecl.Word

/-- The number of words. -/
def size : Nat := 0x10000000000000000

/-- The number of words without a sign bit, one more than the largest signed word. -/
def half : Nat := 0x8000000000000000

end StubDecl.Word
