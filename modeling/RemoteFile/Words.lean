/-!
# Words

How many values a machine word has. Powers of two that bound a quantity are written out here, once
for the whole library.
-/

namespace RemoteFile

/-- The number of values of a word of 64 bits. -/
abbrev wordLimit : Nat := 18446744073709551616

/-- The number of values of a word of 64 bits that are not negative if it has a sign. -/
abbrev signedLimit : Nat := 9223372036854775808

/-- The number of values of a word of 32 bits. -/
abbrev shortLimit : Nat := 4294967296

end RemoteFile
