/-!
# Compatibility decomposition, the ASCII part

Many characters are variants of others: letters with marks, full-width and mathematical letters,
ligatures, fractions. The compatibility decomposition (NFKD of Unicode 14) takes such a character
apart; `asciiPart` gives the ASCII characters among its parts. An ASCII character is its own part,
and most other characters have none.
-/

namespace ContractAudit.Text

/-- Ranges whose characters all have the same ASCII part. -/
def sharedParts : List (Nat × Nat × String) := [
  (0xa0, 0xa0, " "), (0xa8, 0xa8, " "), (0xaa, 0xaa, "a"), (0xaf, 0xaf, " "), (0xb2, 0xb2, "2"),
  (0xb3, 0xb3, "3"), (0xb4, 0xb4, " "), (0xb8, 0xb8, " "), (0xb9, 0xb9, "1"), (0xba, 0xba, "o"),
  (0xbc, 0xbc, "14"), (0xbd, 0xbd, "12"), (0xbe, 0xbe, "34"), (0xc0, 0xc5, "A"), (0xc7, 0xc7, "C"),
  (0xc8, 0xcb, "E"), (0xcc, 0xcf, "I"), (0xd1, 0xd1, "N"), (0xd2, 0xd6, "O"), (0xd9, 0xdc, "U"),
  (0xdd, 0xdd, "Y"), (0xe0, 0xe5, "a"), (0xe7, 0xe7, "c"), (0xe8, 0xeb, "e"), (0xec, 0xef, "i"),
  (0xf1, 0xf1, "n"), (0xf2, 0xf6, "o"), (0xf9, 0xfc, "u"), (0xfd, 0xfd, "y"), (0xff, 0xff, "y"),
  (0x100, 0x100, "A"), (0x101, 0x101, "a"), (0x102, 0x102, "A"), (0x103, 0x103, "a"),
  (0x104, 0x104, "A"), (0x105, 0x105, "a"), (0x106, 0x106, "C"), (0x107, 0x107, "c"),
  (0x108, 0x108, "C"), (0x109, 0x109, "c"), (0x10a, 0x10a, "C"), (0x10b, 0x10b, "c"),
  (0x10c, 0x10c, "C"), (0x10d, 0x10d, "c"), (0x10e, 0x10e, "D"), (0x10f, 0x10f, "d"),
  (0x112, 0x112, "E"), (0x113, 0x113, "e"), (0x114, 0x114, "E"), (0x115, 0x115, "e"),
  (0x116, 0x116, "E"), (0x117, 0x117, "e"), (0x118, 0x118, "E"), (0x119, 0x119, "e"),
  (0x11a, 0x11a, "E"), (0x11b, 0x11b, "e"), (0x11c, 0x11c, "G"), (0x11d, 0x11d, "g"),
  (0x11e, 0x11e, "G"), (0x11f, 0x11f, "g"), (0x120, 0x120, "G"), (0x121, 0x121, "g"),
  (0x122, 0x122, "G"), (0x123, 0x123, "g"), (0x124, 0x124, "H"), (0x125, 0x125, "h"),
  (0x128, 0x128, "I"), (0x129, 0x129, "i"), (0x12a, 0x12a, "I"), (0x12b, 0x12b, "i"),
  (0x12c, 0x12c, "I"), (0x12d, 0x12d, "i"), (0x12e, 0x12e, "I"), (0x12f, 0x12f, "i"),
  (0x130, 0x130, "I"), (0x132, 0x132, "IJ"), (0x133, 0x133, "ij"), (0x134, 0x134, "J"),
  (0x135, 0x135, "j"), (0x136, 0x136, "K"), (0x137, 0x137, "k"), (0x139, 0x139, "L"),
  (0x13a, 0x13a, "l"), (0x13b, 0x13b, "L"), (0x13c, 0x13c, "l"), (0x13d, 0x13d, "L"),
  (0x13e, 0x13e, "l"), (0x13f, 0x13f, "L"), (0x140, 0x140, "l"), (0x143, 0x143, "N"),
  (0x144, 0x144, "n"), (0x145, 0x145, "N"), (0x146, 0x146, "n"), (0x147, 0x147, "N"),
  (0x148, 0x149, "n"), (0x14c, 0x14c, "O"), (0x14d, 0x14d, "o"), (0x14e, 0x14e, "O"),
  (0x14f, 0x14f, "o"), (0x150, 0x150, "O"), (0x151, 0x151, "o"), (0x154, 0x154, "R"),
  (0x155, 0x155, "r"), (0x156, 0x156, "R"), (0x157, 0x157, "r"), (0x158, 0x158, "R"),
  (0x159, 0x159, "r"), (0x15a, 0x15a, "S"), (0x15b, 0x15b, "s"), (0x15c, 0x15c, "S"),
  (0x15d, 0x15d, "s"), (0x15e, 0x15e, "S"), (0x15f, 0x15f, "s"), (0x160, 0x160, "S"),
  (0x161, 0x161, "s"), (0x162, 0x162, "T"), (0x163, 0x163, "t"), (0x164, 0x164, "T"),
  (0x165, 0x165, "t"), (0x168, 0x168, "U"), (0x169, 0x169, "u"), (0x16a, 0x16a, "U"),
  (0x16b, 0x16b, "u"), (0x16c, 0x16c, "U"), (0x16d, 0x16d, "u"), (0x16e, 0x16e, "U"),
  (0x16f, 0x16f, "u"), (0x170, 0x170, "U"), (0x171, 0x171, "u"), (0x172, 0x172, "U"),
  (0x173, 0x173, "u"), (0x174, 0x174, "W"), (0x175, 0x175, "w"), (0x176, 0x176, "Y"),
  (0x177, 0x177, "y"), (0x178, 0x178, "Y"), (0x179, 0x179, "Z"), (0x17a, 0x17a, "z"),
  (0x17b, 0x17b, "Z"), (0x17c, 0x17c, "z"), (0x17d, 0x17d, "Z"), (0x17e, 0x17e, "z"),
  (0x17f, 0x17f, "s"), (0x1a0, 0x1a0, "O"), (0x1a1, 0x1a1, "o"), (0x1af, 0x1af, "U"),
  (0x1b0, 0x1b0, "u"), (0x1c4, 0x1c4, "DZ"), (0x1c5, 0x1c5, "Dz"), (0x1c6, 0x1c6, "dz"),
  (0x1c7, 0x1c7, "LJ"), (0x1c8, 0x1c8, "Lj"), (0x1c9, 0x1c9, "lj"), (0x1ca, 0x1ca, "NJ"),
  (0x1cb, 0x1cb, "Nj"), (0x1cc, 0x1cc, "nj"), (0x1cd, 0x1cd, "A"), (0x1ce, 0x1ce, "a"),
  (0x1cf, 0x1cf, "I"), (0x1d0, 0x1d0, "i"), (0x1d1, 0x1d1, "O"), (0x1d2, 0x1d2, "o"),
  (0x1d3, 0x1d3, "U"), (0x1d4, 0x1d4, "u"), (0x1d5, 0x1d5, "U"), (0x1d6, 0x1d6, "u"),
  (0x1d7, 0x1d7, "U"), (0x1d8, 0x1d8, "u"), (0x1d9, 0x1d9, "U"), (0x1da, 0x1da, "u"),
  (0x1db, 0x1db, "U"), (0x1dc, 0x1dc, "u"), (0x1de, 0x1de, "A"), (0x1df, 0x1df, "a"),
  (0x1e0, 0x1e0, "A"), (0x1e1, 0x1e1, "a"), (0x1e6, 0x1e6, "G"), (0x1e7, 0x1e7, "g"),
  (0x1e8, 0x1e8, "K"), (0x1e9, 0x1e9, "k"), (0x1ea, 0x1ea, "O"), (0x1eb, 0x1eb, "o"),
  (0x1ec, 0x1ec, "O"), (0x1ed, 0x1ed, "o"), (0x1f0, 0x1f0, "j"), (0x1f1, 0x1f1, "DZ"),
  (0x1f2, 0x1f2, "Dz"), (0x1f3, 0x1f3, "dz"), (0x1f4, 0x1f4, "G"), (0x1f5, 0x1f5, "g"),
  (0x1f8, 0x1f8, "N"), (0x1f9, 0x1f9, "n"), (0x1fa, 0x1fa, "A"), (0x1fb, 0x1fb, "a"),
  (0x200, 0x200, "A"), (0x201, 0x201, "a"), (0x202, 0x202, "A"), (0x203, 0x203, "a"),
  (0x204, 0x204, "E"), (0x205, 0x205, "e"), (0x206, 0x206, "E"), (0x207, 0x207, "e"),
  (0x208, 0x208, "I"), (0x209, 0x209, "i"), (0x20a, 0x20a, "I"), (0x20b, 0x20b, "i"),
  (0x20c, 0x20c, "O"), (0x20d, 0x20d, "o"), (0x20e, 0x20e, "O"), (0x20f, 0x20f, "o"),
  (0x210, 0x210, "R"), (0x211, 0x211, "r"), (0x212, 0x212, "R"), (0x213, 0x213, "r"),
  (0x214, 0x214, "U"), (0x215, 0x215, "u"), (0x216, 0x216, "U"), (0x217, 0x217, "u"),
  (0x218, 0x218, "S"), (0x219, 0x219, "s"), (0x21a, 0x21a, "T"), (0x21b, 0x21b, "t"),
  (0x21e, 0x21e, "H"), (0x21f, 0x21f, "h"), (0x226, 0x226, "A"), (0x227, 0x227, "a"),
  (0x228, 0x228, "E"), (0x229, 0x229, "e"), (0x22a, 0x22a, "O"), (0x22b, 0x22b, "o"),
  (0x22c, 0x22c, "O"), (0x22d, 0x22d, "o"), (0x22e, 0x22e, "O"), (0x22f, 0x22f, "o"),
  (0x230, 0x230, "O"), (0x231, 0x231, "o"), (0x232, 0x232, "Y"), (0x233, 0x233, "y"),
  (0x2b0, 0x2b0, "h"), (0x2b2, 0x2b2, "j"), (0x2b3, 0x2b3, "r"), (0x2b7, 0x2b7, "w"),
  (0x2b8, 0x2b8, "y"), (0x2d8, 0x2dd, " "), (0x2e1, 0x2e1, "l"), (0x2e2, 0x2e2, "s"),
  (0x2e3, 0x2e3, "x"), (0x37a, 0x37a, " "), (0x37e, 0x37e, ";"), (0x384, 0x385, " "),
  (0x1d2c, 0x1d2c, "A"), (0x1d2e, 0x1d2e, "B"), (0x1d30, 0x1d30, "D"), (0x1d31, 0x1d31, "E"),
  (0x1d3c, 0x1d3c, "O"), (0x1d3e, 0x1d3e, "P"), (0x1d3f, 0x1d3f, "R"), (0x1d40, 0x1d40, "T"),
  (0x1d41, 0x1d41, "U"), (0x1d42, 0x1d42, "W"), (0x1d43, 0x1d43, "a"), (0x1d47, 0x1d47, "b"),
  (0x1d48, 0x1d48, "d"), (0x1d49, 0x1d49, "e"), (0x1d4d, 0x1d4d, "g"), (0x1d4f, 0x1d4f, "k"),
  (0x1d50, 0x1d50, "m"), (0x1d52, 0x1d52, "o"), (0x1d56, 0x1d56, "p"), (0x1d57, 0x1d57, "t"),
  (0x1d58, 0x1d58, "u"), (0x1d5b, 0x1d5b, "v"), (0x1d62, 0x1d62, "i"), (0x1d63, 0x1d63, "r"),
  (0x1d64, 0x1d64, "u"), (0x1d65, 0x1d65, "v"), (0x1d9c, 0x1d9c, "c"), (0x1da0, 0x1da0, "f"),
  (0x1dbb, 0x1dbb, "z"), (0x1e00, 0x1e00, "A"), (0x1e01, 0x1e01, "a"), (0x1e02, 0x1e02, "B"),
  (0x1e03, 0x1e03, "b"), (0x1e04, 0x1e04, "B"), (0x1e05, 0x1e05, "b"), (0x1e06, 0x1e06, "B"),
  (0x1e07, 0x1e07, "b"), (0x1e08, 0x1e08, "C"), (0x1e09, 0x1e09, "c"), (0x1e0a, 0x1e0a, "D"),
  (0x1e0b, 0x1e0b, "d"), (0x1e0c, 0x1e0c, "D"), (0x1e0d, 0x1e0d, "d"), (0x1e0e, 0x1e0e, "D"),
  (0x1e0f, 0x1e0f, "d"), (0x1e10, 0x1e10, "D"), (0x1e11, 0x1e11, "d"), (0x1e12, 0x1e12, "D"),
  (0x1e13, 0x1e13, "d"), (0x1e14, 0x1e14, "E"), (0x1e15, 0x1e15, "e"), (0x1e16, 0x1e16, "E"),
  (0x1e17, 0x1e17, "e"), (0x1e18, 0x1e18, "E"), (0x1e19, 0x1e19, "e"), (0x1e1a, 0x1e1a, "E"),
  (0x1e1b, 0x1e1b, "e"), (0x1e1c, 0x1e1c, "E"), (0x1e1d, 0x1e1d, "e"), (0x1e1e, 0x1e1e, "F"),
  (0x1e1f, 0x1e1f, "f"), (0x1e20, 0x1e20, "G"), (0x1e21, 0x1e21, "g"), (0x1e22, 0x1e22, "H"),
  (0x1e23, 0x1e23, "h"), (0x1e24, 0x1e24, "H"), (0x1e25, 0x1e25, "h"), (0x1e26, 0x1e26, "H"),
  (0x1e27, 0x1e27, "h"), (0x1e28, 0x1e28, "H"), (0x1e29, 0x1e29, "h"), (0x1e2a, 0x1e2a, "H"),
  (0x1e2b, 0x1e2b, "h"), (0x1e2c, 0x1e2c, "I"), (0x1e2d, 0x1e2d, "i"), (0x1e2e, 0x1e2e, "I"),
  (0x1e2f, 0x1e2f, "i"), (0x1e30, 0x1e30, "K"), (0x1e31, 0x1e31, "k"), (0x1e32, 0x1e32, "K"),
  (0x1e33, 0x1e33, "k"), (0x1e34, 0x1e34, "K"), (0x1e35, 0x1e35, "k"), (0x1e36, 0x1e36, "L"),
  (0x1e37, 0x1e37, "l"), (0x1e38, 0x1e38, "L"), (0x1e39, 0x1e39, "l"), (0x1e3a, 0x1e3a, "L"),
  (0x1e3b, 0x1e3b, "l"), (0x1e3c, 0x1e3c, "L"), (0x1e3d, 0x1e3d, "l"), (0x1e3e, 0x1e3e, "M"),
  (0x1e3f, 0x1e3f, "m"), (0x1e40, 0x1e40, "M"), (0x1e41, 0x1e41, "m"), (0x1e42, 0x1e42, "M"),
  (0x1e43, 0x1e43, "m"), (0x1e44, 0x1e44, "N"), (0x1e45, 0x1e45, "n"), (0x1e46, 0x1e46, "N"),
  (0x1e47, 0x1e47, "n"), (0x1e48, 0x1e48, "N"), (0x1e49, 0x1e49, "n"), (0x1e4a, 0x1e4a, "N"),
  (0x1e4b, 0x1e4b, "n"), (0x1e4c, 0x1e4c, "O"), (0x1e4d, 0x1e4d, "o"), (0x1e4e, 0x1e4e, "O"),
  (0x1e4f, 0x1e4f, "o"), (0x1e50, 0x1e50, "O"), (0x1e51, 0x1e51, "o"), (0x1e52, 0x1e52, "O"),
  (0x1e53, 0x1e53, "o"), (0x1e54, 0x1e54, "P"), (0x1e55, 0x1e55, "p"), (0x1e56, 0x1e56, "P"),
  (0x1e57, 0x1e57, "p"), (0x1e58, 0x1e58, "R"), (0x1e59, 0x1e59, "r"), (0x1e5a, 0x1e5a, "R"),
  (0x1e5b, 0x1e5b, "r"), (0x1e5c, 0x1e5c, "R"), (0x1e5d, 0x1e5d, "r"), (0x1e5e, 0x1e5e, "R"),
  (0x1e5f, 0x1e5f, "r"), (0x1e60, 0x1e60, "S"), (0x1e61, 0x1e61, "s"), (0x1e62, 0x1e62, "S"),
  (0x1e63, 0x1e63, "s"), (0x1e64, 0x1e64, "S"), (0x1e65, 0x1e65, "s"), (0x1e66, 0x1e66, "S"),
  (0x1e67, 0x1e67, "s"), (0x1e68, 0x1e68, "S"), (0x1e69, 0x1e69, "s"), (0x1e6a, 0x1e6a, "T"),
  (0x1e6b, 0x1e6b, "t"), (0x1e6c, 0x1e6c, "T"), (0x1e6d, 0x1e6d, "t"), (0x1e6e, 0x1e6e, "T"),
  (0x1e6f, 0x1e6f, "t"), (0x1e70, 0x1e70, "T"), (0x1e71, 0x1e71, "t"), (0x1e72, 0x1e72, "U"),
  (0x1e73, 0x1e73, "u"), (0x1e74, 0x1e74, "U"), (0x1e75, 0x1e75, "u"), (0x1e76, 0x1e76, "U"),
  (0x1e77, 0x1e77, "u"), (0x1e78, 0x1e78, "U"), (0x1e79, 0x1e79, "u"), (0x1e7a, 0x1e7a, "U"),
  (0x1e7b, 0x1e7b, "u"), (0x1e7c, 0x1e7c, "V"), (0x1e7d, 0x1e7d, "v"), (0x1e7e, 0x1e7e, "V"),
  (0x1e7f, 0x1e7f, "v"), (0x1e80, 0x1e80, "W"), (0x1e81, 0x1e81, "w"), (0x1e82, 0x1e82, "W"),
  (0x1e83, 0x1e83, "w"), (0x1e84, 0x1e84, "W"), (0x1e85, 0x1e85, "w"), (0x1e86, 0x1e86, "W"),
  (0x1e87, 0x1e87, "w"), (0x1e88, 0x1e88, "W"), (0x1e89, 0x1e89, "w"), (0x1e8a, 0x1e8a, "X"),
  (0x1e8b, 0x1e8b, "x"), (0x1e8c, 0x1e8c, "X"), (0x1e8d, 0x1e8d, "x"), (0x1e8e, 0x1e8e, "Y"),
  (0x1e8f, 0x1e8f, "y"), (0x1e90, 0x1e90, "Z"), (0x1e91, 0x1e91, "z"), (0x1e92, 0x1e92, "Z"),
  (0x1e93, 0x1e93, "z"), (0x1e94, 0x1e94, "Z"), (0x1e95, 0x1e95, "z"), (0x1e96, 0x1e96, "h"),
  (0x1e97, 0x1e97, "t"), (0x1e98, 0x1e98, "w"), (0x1e99, 0x1e99, "y"), (0x1e9a, 0x1e9a, "a"),
  (0x1e9b, 0x1e9b, "s"), (0x1ea0, 0x1ea0, "A"), (0x1ea1, 0x1ea1, "a"), (0x1ea2, 0x1ea2, "A"),
  (0x1ea3, 0x1ea3, "a"), (0x1ea4, 0x1ea4, "A"), (0x1ea5, 0x1ea5, "a"), (0x1ea6, 0x1ea6, "A"),
  (0x1ea7, 0x1ea7, "a"), (0x1ea8, 0x1ea8, "A"), (0x1ea9, 0x1ea9, "a"), (0x1eaa, 0x1eaa, "A"),
  (0x1eab, 0x1eab, "a"), (0x1eac, 0x1eac, "A"), (0x1ead, 0x1ead, "a"), (0x1eae, 0x1eae, "A"),
  (0x1eaf, 0x1eaf, "a"), (0x1eb0, 0x1eb0, "A"), (0x1eb1, 0x1eb1, "a"), (0x1eb2, 0x1eb2, "A"),
  (0x1eb3, 0x1eb3, "a"), (0x1eb4, 0x1eb4, "A"), (0x1eb5, 0x1eb5, "a"), (0x1eb6, 0x1eb6, "A"),
  (0x1eb7, 0x1eb7, "a"), (0x1eb8, 0x1eb8, "E"), (0x1eb9, 0x1eb9, "e"), (0x1eba, 0x1eba, "E"),
  (0x1ebb, 0x1ebb, "e"), (0x1ebc, 0x1ebc, "E"), (0x1ebd, 0x1ebd, "e"), (0x1ebe, 0x1ebe, "E"),
  (0x1ebf, 0x1ebf, "e"), (0x1ec0, 0x1ec0, "E"), (0x1ec1, 0x1ec1, "e"), (0x1ec2, 0x1ec2, "E"),
  (0x1ec3, 0x1ec3, "e"), (0x1ec4, 0x1ec4, "E"), (0x1ec5, 0x1ec5, "e"), (0x1ec6, 0x1ec6, "E"),
  (0x1ec7, 0x1ec7, "e"), (0x1ec8, 0x1ec8, "I"), (0x1ec9, 0x1ec9, "i"), (0x1eca, 0x1eca, "I"),
  (0x1ecb, 0x1ecb, "i"), (0x1ecc, 0x1ecc, "O"), (0x1ecd, 0x1ecd, "o"), (0x1ece, 0x1ece, "O"),
  (0x1ecf, 0x1ecf, "o"), (0x1ed0, 0x1ed0, "O"), (0x1ed1, 0x1ed1, "o"), (0x1ed2, 0x1ed2, "O"),
  (0x1ed3, 0x1ed3, "o"), (0x1ed4, 0x1ed4, "O"), (0x1ed5, 0x1ed5, "o"), (0x1ed6, 0x1ed6, "O"),
  (0x1ed7, 0x1ed7, "o"), (0x1ed8, 0x1ed8, "O"), (0x1ed9, 0x1ed9, "o"), (0x1eda, 0x1eda, "O"),
  (0x1edb, 0x1edb, "o"), (0x1edc, 0x1edc, "O"), (0x1edd, 0x1edd, "o"), (0x1ede, 0x1ede, "O"),
  (0x1edf, 0x1edf, "o"), (0x1ee0, 0x1ee0, "O"), (0x1ee1, 0x1ee1, "o"), (0x1ee2, 0x1ee2, "O"),
  (0x1ee3, 0x1ee3, "o"), (0x1ee4, 0x1ee4, "U"), (0x1ee5, 0x1ee5, "u"), (0x1ee6, 0x1ee6, "U"),
  (0x1ee7, 0x1ee7, "u"), (0x1ee8, 0x1ee8, "U"), (0x1ee9, 0x1ee9, "u"), (0x1eea, 0x1eea, "U"),
  (0x1eeb, 0x1eeb, "u"), (0x1eec, 0x1eec, "U"), (0x1eed, 0x1eed, "u"), (0x1eee, 0x1eee, "U"),
  (0x1eef, 0x1eef, "u"), (0x1ef0, 0x1ef0, "U"), (0x1ef1, 0x1ef1, "u"), (0x1ef2, 0x1ef2, "Y"),
  (0x1ef3, 0x1ef3, "y"), (0x1ef4, 0x1ef4, "Y"), (0x1ef5, 0x1ef5, "y"), (0x1ef6, 0x1ef6, "Y"),
  (0x1ef7, 0x1ef7, "y"), (0x1ef8, 0x1ef8, "Y"), (0x1ef9, 0x1ef9, "y"), (0x1fbd, 0x1fbd, " "),
  (0x1fbf, 0x1fc1, " "), (0x1fcd, 0x1fcf, " "), (0x1fdd, 0x1fdf, " "), (0x1fed, 0x1fee, " "),
  (0x1fef, 0x1fef, "`"), (0x1ffd, 0x1ffe, " "), (0x2000, 0x200a, " "), (0x2017, 0x2017, " "),
  (0x2024, 0x2024, "."), (0x2025, 0x2025, ".."), (0x2026, 0x2026, "..."), (0x202f, 0x202f, " "),
  (0x203c, 0x203c, "!!"), (0x203e, 0x203e, " "), (0x2047, 0x2047, "??"), (0x2048, 0x2048, "?!"),
  (0x2049, 0x2049, "!?"), (0x205f, 0x205f, " "), (0x2070, 0x2070, "0"), (0x2071, 0x2071, "i"),
  (0x207a, 0x207a, "+"), (0x207c, 0x207c, "="), (0x207d, 0x207d, "("), (0x207e, 0x207e, ")"),
  (0x207f, 0x207f, "n"), (0x208a, 0x208a, "+"), (0x208c, 0x208c, "="), (0x208d, 0x208d, "("),
  (0x208e, 0x208e, ")"), (0x2090, 0x2090, "a"), (0x2091, 0x2091, "e"), (0x2092, 0x2092, "o"),
  (0x2093, 0x2093, "x"), (0x2095, 0x2095, "h"), (0x209a, 0x209a, "p"), (0x209b, 0x209b, "s"),
  (0x209c, 0x209c, "t"), (0x20a8, 0x20a8, "Rs"), (0x2100, 0x2100, "a/c"), (0x2101, 0x2101, "a/s"),
  (0x2102, 0x2103, "C"), (0x2105, 0x2105, "c/o"), (0x2106, 0x2106, "c/u"), (0x2109, 0x2109, "F"),
  (0x210a, 0x210a, "g"), (0x210b, 0x210d, "H"), (0x210e, 0x210e, "h"), (0x2110, 0x2111, "I"),
  (0x2112, 0x2112, "L"), (0x2113, 0x2113, "l"), (0x2115, 0x2115, "N"), (0x2116, 0x2116, "No"),
  (0x211c, 0x211d, "R"), (0x2120, 0x2120, "SM"), (0x2121, 0x2121, "TEL"), (0x2122, 0x2122, "TM"),
  (0x2124, 0x2124, "Z"), (0x2128, 0x2128, "Z"), (0x212a, 0x212a, "K"), (0x212f, 0x212f, "e"),
  (0x2130, 0x2130, "E"), (0x2131, 0x2131, "F"), (0x2133, 0x2133, "M"), (0x2134, 0x2134, "o"),
  (0x2139, 0x2139, "i"), (0x213b, 0x213b, "FAX"), (0x2145, 0x2145, "D"), (0x2146, 0x2146, "d"),
  (0x2147, 0x2147, "e"), (0x2148, 0x2148, "i"), (0x2149, 0x2149, "j"), (0x2150, 0x2150, "17"),
  (0x2151, 0x2151, "19"), (0x2152, 0x2152, "110"), (0x2153, 0x2153, "13"), (0x2154, 0x2154, "23"),
  (0x2155, 0x2155, "15"), (0x2156, 0x2156, "25"), (0x2157, 0x2157, "35"), (0x2158, 0x2158, "45"),
  (0x2159, 0x2159, "16"), (0x215a, 0x215a, "56"), (0x215b, 0x215b, "18"), (0x215c, 0x215c, "38"),
  (0x215d, 0x215d, "58"), (0x215e, 0x215e, "78"), (0x215f, 0x215f, "1"), (0x2160, 0x2160, "I"),
  (0x2161, 0x2161, "II"), (0x2162, 0x2162, "III"), (0x2163, 0x2163, "IV"), (0x2164, 0x2164, "V"),
  (0x2165, 0x2165, "VI"), (0x2166, 0x2166, "VII"), (0x2167, 0x2167, "VIII"),
  (0x2168, 0x2168, "IX"), (0x2169, 0x2169, "X"), (0x216a, 0x216a, "XI"), (0x216b, 0x216b, "XII"),
  (0x216c, 0x216c, "L"), (0x216d, 0x216d, "C"), (0x216e, 0x216e, "D"), (0x216f, 0x216f, "M"),
  (0x2170, 0x2170, "i"), (0x2171, 0x2171, "ii"), (0x2172, 0x2172, "iii"), (0x2173, 0x2173, "iv"),
  (0x2174, 0x2174, "v"), (0x2175, 0x2175, "vi"), (0x2176, 0x2176, "vii"), (0x2177, 0x2177, "viii"),
  (0x2178, 0x2178, "ix"), (0x2179, 0x2179, "x"), (0x217a, 0x217a, "xi"), (0x217b, 0x217b, "xii"),
  (0x217c, 0x217c, "l"), (0x217d, 0x217d, "c"), (0x217e, 0x217e, "d"), (0x217f, 0x217f, "m"),
  (0x2189, 0x2189, "03"), (0x2260, 0x2260, "="), (0x226e, 0x226e, "<"), (0x226f, 0x226f, ">"),
  (0x2469, 0x2469, "10"), (0x246a, 0x246a, "11"), (0x246b, 0x246b, "12"), (0x246c, 0x246c, "13"),
  (0x246d, 0x246d, "14"), (0x246e, 0x246e, "15"), (0x246f, 0x246f, "16"), (0x2470, 0x2470, "17"),
  (0x2471, 0x2471, "18"), (0x2472, 0x2472, "19"), (0x2473, 0x2473, "20"), (0x2474, 0x2474, "(1)"),
  (0x2475, 0x2475, "(2)"), (0x2476, 0x2476, "(3)"), (0x2477, 0x2477, "(4)"),
  (0x2478, 0x2478, "(5)"), (0x2479, 0x2479, "(6)"), (0x247a, 0x247a, "(7)"),
  (0x247b, 0x247b, "(8)"), (0x247c, 0x247c, "(9)"), (0x247d, 0x247d, "(10)"),
  (0x247e, 0x247e, "(11)"), (0x247f, 0x247f, "(12)"), (0x2480, 0x2480, "(13)"),
  (0x2481, 0x2481, "(14)"), (0x2482, 0x2482, "(15)"), (0x2483, 0x2483, "(16)"),
  (0x2484, 0x2484, "(17)"), (0x2485, 0x2485, "(18)"), (0x2486, 0x2486, "(19)"),
  (0x2487, 0x2487, "(20)"), (0x2488, 0x2488, "1."), (0x2489, 0x2489, "2."), (0x248a, 0x248a, "3."),
  (0x248b, 0x248b, "4."), (0x248c, 0x248c, "5."), (0x248d, 0x248d, "6."), (0x248e, 0x248e, "7."),
  (0x248f, 0x248f, "8."), (0x2490, 0x2490, "9."), (0x2491, 0x2491, "10."), (0x2492, 0x2492, "11."),
  (0x2493, 0x2493, "12."), (0x2494, 0x2494, "13."), (0x2495, 0x2495, "14."),
  (0x2496, 0x2496, "15."), (0x2497, 0x2497, "16."), (0x2498, 0x2498, "17."),
  (0x2499, 0x2499, "18."), (0x249a, 0x249a, "19."), (0x249b, 0x249b, "20."),
  (0x249c, 0x249c, "(a)"), (0x249d, 0x249d, "(b)"), (0x249e, 0x249e, "(c)"),
  (0x249f, 0x249f, "(d)"), (0x24a0, 0x24a0, "(e)"), (0x24a1, 0x24a1, "(f)"),
  (0x24a2, 0x24a2, "(g)"), (0x24a3, 0x24a3, "(h)"), (0x24a4, 0x24a4, "(i)"),
  (0x24a5, 0x24a5, "(j)"), (0x24a6, 0x24a6, "(k)"), (0x24a7, 0x24a7, "(l)"),
  (0x24a8, 0x24a8, "(m)"), (0x24a9, 0x24a9, "(n)"), (0x24aa, 0x24aa, "(o)"),
  (0x24ab, 0x24ab, "(p)"), (0x24ac, 0x24ac, "(q)"), (0x24ad, 0x24ad, "(r)"),
  (0x24ae, 0x24ae, "(s)"), (0x24af, 0x24af, "(t)"), (0x24b0, 0x24b0, "(u)"),
  (0x24b1, 0x24b1, "(v)"), (0x24b2, 0x24b2, "(w)"), (0x24b3, 0x24b3, "(x)"),
  (0x24b4, 0x24b4, "(y)"), (0x24b5, 0x24b5, "(z)"), (0x24ea, 0x24ea, "0"), (0x2a74, 0x2a74, "::="),
  (0x2a75, 0x2a75, "=="), (0x2a76, 0x2a76, "==="), (0x2c7c, 0x2c7c, "j"), (0x2c7d, 0x2c7d, "V"),
  (0x3000, 0x3000, " "), (0x309b, 0x309c, " "), (0x3200, 0x321e, "()"), (0x3220, 0x3243, "()"),
  (0x3250, 0x3250, "PTE"), (0x3251, 0x3251, "21"), (0x3252, 0x3252, "22"), (0x3253, 0x3253, "23"),
  (0x3254, 0x3254, "24"), (0x3255, 0x3255, "25"), (0x3256, 0x3256, "26"), (0x3257, 0x3257, "27"),
  (0x3258, 0x3258, "28"), (0x3259, 0x3259, "29"), (0x325a, 0x325a, "30"), (0x325b, 0x325b, "31"),
  (0x325c, 0x325c, "32"), (0x325d, 0x325d, "33"), (0x325e, 0x325e, "34"), (0x325f, 0x325f, "35"),
  (0x32b1, 0x32b1, "36"), (0x32b2, 0x32b2, "37"), (0x32b3, 0x32b3, "38"), (0x32b4, 0x32b4, "39"),
  (0x32b5, 0x32b5, "40"), (0x32b6, 0x32b6, "41"), (0x32b7, 0x32b7, "42"), (0x32b8, 0x32b8, "43"),
  (0x32b9, 0x32b9, "44"), (0x32ba, 0x32ba, "45"), (0x32bb, 0x32bb, "46"), (0x32bc, 0x32bc, "47"),
  (0x32bd, 0x32bd, "48"), (0x32be, 0x32be, "49"), (0x32bf, 0x32bf, "50"), (0x32c9, 0x32c9, "10"),
  (0x32ca, 0x32ca, "11"), (0x32cb, 0x32cb, "12"), (0x32cc, 0x32cc, "Hg"), (0x32cd, 0x32cd, "erg"),
  (0x32ce, 0x32ce, "eV"), (0x32cf, 0x32cf, "LTD"), (0x3362, 0x3362, "10"), (0x3363, 0x3363, "11"),
  (0x3364, 0x3364, "12"), (0x3365, 0x3365, "13"), (0x3366, 0x3366, "14"), (0x3367, 0x3367, "15"),
  (0x3368, 0x3368, "16"), (0x3369, 0x3369, "17"), (0x336a, 0x336a, "18"), (0x336b, 0x336b, "19"),
  (0x336c, 0x336c, "20"), (0x336d, 0x336d, "21"), (0x336e, 0x336e, "22"), (0x336f, 0x336f, "23"),
  (0x3370, 0x3370, "24"), (0x3371, 0x3371, "hPa"), (0x3372, 0x3372, "da"), (0x3373, 0x3373, "AU"),
  (0x3374, 0x3374, "bar"), (0x3375, 0x3375, "oV"), (0x3376, 0x3376, "pc"), (0x3377, 0x3377, "dm"),
  (0x3378, 0x3378, "dm2"), (0x3379, 0x3379, "dm3"), (0x337a, 0x337a, "IU"), (0x3380, 0x3380, "pA"),
  (0x3381, 0x3381, "nA"), (0x3382, 0x3382, "A"), (0x3383, 0x3383, "mA"), (0x3384, 0x3384, "kA"),
  (0x3385, 0x3385, "KB"), (0x3386, 0x3386, "MB"), (0x3387, 0x3387, "GB"), (0x3388, 0x3388, "cal"),
  (0x3389, 0x3389, "kcal"), (0x338a, 0x338a, "pF"), (0x338b, 0x338b, "nF"), (0x338c, 0x338c, "F"),
  (0x338d, 0x338d, "g"), (0x338e, 0x338e, "mg"), (0x338f, 0x338f, "kg"), (0x3390, 0x3390, "Hz"),
  (0x3391, 0x3391, "kHz"), (0x3392, 0x3392, "MHz"), (0x3393, 0x3393, "GHz"),
  (0x3394, 0x3394, "THz"), (0x3395, 0x3395, "l"), (0x3396, 0x3396, "ml"), (0x3397, 0x3397, "dl"),
  (0x3398, 0x3398, "kl"), (0x3399, 0x3399, "fm"), (0x339a, 0x339a, "nm"), (0x339b, 0x339b, "m"),
  (0x339c, 0x339c, "mm"), (0x339d, 0x339d, "cm"), (0x339e, 0x339e, "km"), (0x339f, 0x339f, "mm2"),
  (0x33a0, 0x33a0, "cm2"), (0x33a1, 0x33a1, "m2"), (0x33a2, 0x33a2, "km2"),
  (0x33a3, 0x33a3, "mm3"), (0x33a4, 0x33a4, "cm3"), (0x33a5, 0x33a5, "m3"),
  (0x33a6, 0x33a6, "km3"), (0x33a7, 0x33a7, "ms"), (0x33a8, 0x33a8, "ms2"), (0x33a9, 0x33a9, "Pa"),
  (0x33aa, 0x33aa, "kPa"), (0x33ab, 0x33ab, "MPa"), (0x33ac, 0x33ac, "GPa"),
  (0x33ad, 0x33ad, "rad"), (0x33ae, 0x33ae, "rads"), (0x33af, 0x33af, "rads2"),
  (0x33b0, 0x33b0, "ps"), (0x33b1, 0x33b1, "ns"), (0x33b2, 0x33b2, "s"), (0x33b3, 0x33b3, "ms"),
  (0x33b4, 0x33b4, "pV"), (0x33b5, 0x33b5, "nV"), (0x33b6, 0x33b6, "V"), (0x33b7, 0x33b7, "mV"),
  (0x33b8, 0x33b8, "kV"), (0x33b9, 0x33b9, "MV"), (0x33ba, 0x33ba, "pW"), (0x33bb, 0x33bb, "nW"),
  (0x33bc, 0x33bc, "W"), (0x33bd, 0x33bd, "mW"), (0x33be, 0x33be, "kW"), (0x33bf, 0x33bf, "MW"),
  (0x33c0, 0x33c0, "k"), (0x33c1, 0x33c1, "M"), (0x33c2, 0x33c2, "a.m."), (0x33c3, 0x33c3, "Bq"),
  (0x33c4, 0x33c4, "cc"), (0x33c5, 0x33c5, "cd"), (0x33c6, 0x33c6, "Ckg"), (0x33c7, 0x33c7, "Co."),
  (0x33c8, 0x33c8, "dB"), (0x33c9, 0x33c9, "Gy"), (0x33ca, 0x33ca, "ha"), (0x33cb, 0x33cb, "HP"),
  (0x33cc, 0x33cc, "in"), (0x33cd, 0x33cd, "KK"), (0x33ce, 0x33ce, "KM"), (0x33cf, 0x33cf, "kt"),
  (0x33d0, 0x33d0, "lm"), (0x33d1, 0x33d1, "ln"), (0x33d2, 0x33d2, "log"), (0x33d3, 0x33d3, "lx"),
  (0x33d4, 0x33d4, "mb"), (0x33d5, 0x33d5, "mil"), (0x33d6, 0x33d6, "mol"), (0x33d7, 0x33d7, "PH"),
  (0x33d8, 0x33d8, "p.m."), (0x33d9, 0x33d9, "PPM"), (0x33da, 0x33da, "PR"),
  (0x33db, 0x33db, "sr"), (0x33dc, 0x33dc, "Sv"), (0x33dd, 0x33dd, "Wb"), (0x33de, 0x33de, "Vm"),
  (0x33df, 0x33df, "Am"), (0x33e9, 0x33e9, "10"), (0x33ea, 0x33ea, "11"), (0x33eb, 0x33eb, "12"),
  (0x33ec, 0x33ec, "13"), (0x33ed, 0x33ed, "14"), (0x33ee, 0x33ee, "15"), (0x33ef, 0x33ef, "16"),
  (0x33f0, 0x33f0, "17"), (0x33f1, 0x33f1, "18"), (0x33f2, 0x33f2, "19"), (0x33f3, 0x33f3, "20"),
  (0x33f4, 0x33f4, "21"), (0x33f5, 0x33f5, "22"), (0x33f6, 0x33f6, "23"), (0x33f7, 0x33f7, "24"),
  (0x33f8, 0x33f8, "25"), (0x33f9, 0x33f9, "26"), (0x33fa, 0x33fa, "27"), (0x33fb, 0x33fb, "28"),
  (0x33fc, 0x33fc, "29"), (0x33fd, 0x33fd, "30"), (0x33fe, 0x33fe, "31"), (0x33ff, 0x33ff, "gal"),
  (0xa7f2, 0xa7f2, "C"), (0xa7f3, 0xa7f3, "F"), (0xa7f4, 0xa7f4, "Q"), (0xfb00, 0xfb00, "ff"),
  (0xfb01, 0xfb01, "fi"), (0xfb02, 0xfb02, "fl"), (0xfb03, 0xfb03, "ffi"), (0xfb04, 0xfb04, "ffl"),
  (0xfb05, 0xfb06, "st"), (0xfb29, 0xfb29, "+"), (0xfc5e, 0xfc63, " "), (0xfdfa, 0xfdfa, "   "),
  (0xfdfb, 0xfdfb, " "), (0xfe10, 0xfe10, ","), (0xfe13, 0xfe13, ":"), (0xfe14, 0xfe14, ";"),
  (0xfe15, 0xfe15, "!"), (0xfe16, 0xfe16, "?"), (0xfe19, 0xfe19, "..."), (0xfe30, 0xfe30, ".."),
  (0xfe33, 0xfe34, "_"), (0xfe35, 0xfe35, "("), (0xfe36, 0xfe36, ")"), (0xfe37, 0xfe37, "\x7b"),
  (0xfe38, 0xfe38, "\x7d"), (0xfe47, 0xfe47, "["), (0xfe48, 0xfe48, "]"), (0xfe49, 0xfe4c, " "),
  (0xfe4d, 0xfe4f, "_"), (0xfe50, 0xfe50, ","), (0xfe52, 0xfe52, "."), (0xfe54, 0xfe54, ";"),
  (0xfe55, 0xfe55, ":"), (0xfe56, 0xfe56, "?"), (0xfe57, 0xfe57, "!"), (0xfe59, 0xfe59, "("),
  (0xfe5a, 0xfe5a, ")"), (0xfe5b, 0xfe5b, "\x7b"), (0xfe5c, 0xfe5c, "\x7d"), (0xfe5f, 0xfe5f, "#"),
  (0xfe60, 0xfe60, "&"), (0xfe61, 0xfe61, "*"), (0xfe62, 0xfe62, "+"), (0xfe63, 0xfe63, "-"),
  (0xfe64, 0xfe64, "<"), (0xfe65, 0xfe65, ">"), (0xfe66, 0xfe66, "="), (0xfe68, 0xfe68, "\x5c"),
  (0xfe69, 0xfe69, "$"), (0xfe6a, 0xfe6a, "%"), (0xfe6b, 0xfe6b, "@"), (0xfe70, 0xfe70, " "),
  (0xfe72, 0xfe72, " "), (0xfe74, 0xfe74, " "), (0xfe76, 0xfe76, " "), (0xfe78, 0xfe78, " "),
  (0xfe7a, 0xfe7a, " "), (0xfe7c, 0xfe7c, " "), (0xfe7e, 0xfe7e, " "), (0xffe3, 0xffe3, " "),
  (0x107a5, 0x107a5, "q"), (0x1d49c, 0x1d49c, "A"), (0x1d49e, 0x1d49e, "C"),
  (0x1d49f, 0x1d49f, "D"), (0x1d4a2, 0x1d4a2, "G"), (0x1d4a5, 0x1d4a5, "J"),
  (0x1d4a6, 0x1d4a6, "K"), (0x1d4bb, 0x1d4bb, "f"), (0x1d504, 0x1d504, "A"),
  (0x1d505, 0x1d505, "B"), (0x1d538, 0x1d538, "A"), (0x1d539, 0x1d539, "B"),
  (0x1d546, 0x1d546, "O"), (0x1f100, 0x1f100, "0."), (0x1f101, 0x1f101, "0,"),
  (0x1f102, 0x1f102, "1,"), (0x1f103, 0x1f103, "2,"), (0x1f104, 0x1f104, "3,"),
  (0x1f105, 0x1f105, "4,"), (0x1f106, 0x1f106, "5,"), (0x1f107, 0x1f107, "6,"),
  (0x1f108, 0x1f108, "7,"), (0x1f109, 0x1f109, "8,"), (0x1f10a, 0x1f10a, "9,"),
  (0x1f110, 0x1f110, "(A)"), (0x1f111, 0x1f111, "(B)"), (0x1f112, 0x1f112, "(C)"),
  (0x1f113, 0x1f113, "(D)"), (0x1f114, 0x1f114, "(E)"), (0x1f115, 0x1f115, "(F)"),
  (0x1f116, 0x1f116, "(G)"), (0x1f117, 0x1f117, "(H)"), (0x1f118, 0x1f118, "(I)"),
  (0x1f119, 0x1f119, "(J)"), (0x1f11a, 0x1f11a, "(K)"), (0x1f11b, 0x1f11b, "(L)"),
  (0x1f11c, 0x1f11c, "(M)"), (0x1f11d, 0x1f11d, "(N)"), (0x1f11e, 0x1f11e, "(O)"),
  (0x1f11f, 0x1f11f, "(P)"), (0x1f120, 0x1f120, "(Q)"), (0x1f121, 0x1f121, "(R)"),
  (0x1f122, 0x1f122, "(S)"), (0x1f123, 0x1f123, "(T)"), (0x1f124, 0x1f124, "(U)"),
  (0x1f125, 0x1f125, "(V)"), (0x1f126, 0x1f126, "(W)"), (0x1f127, 0x1f127, "(X)"),
  (0x1f128, 0x1f128, "(Y)"), (0x1f129, 0x1f129, "(Z)"), (0x1f12a, 0x1f12a, "S"),
  (0x1f12b, 0x1f12b, "C"), (0x1f12c, 0x1f12c, "R"), (0x1f12d, 0x1f12d, "CD"),
  (0x1f12e, 0x1f12e, "WZ"), (0x1f14a, 0x1f14a, "HV"), (0x1f14b, 0x1f14b, "MV"),
  (0x1f14c, 0x1f14c, "SD"), (0x1f14d, 0x1f14d, "SS"), (0x1f14e, 0x1f14e, "PPV"),
  (0x1f14f, 0x1f14f, "WC"), (0x1f16a, 0x1f16a, "MC"), (0x1f16b, 0x1f16b, "MD"),
  (0x1f16c, 0x1f16c, "MR"), (0x1f190, 0x1f190, "DJ")]

/-- Ranges whose characters have consecutive ASCII characters as their parts, with the first. -/
def consecutiveParts : List (Nat × Nat × Nat) := [
  (0x1d33, 0x1d3a, 0x47), (0x2074, 0x2079, 0x34), (0x2080, 0x2089, 0x30), (0x2096, 0x2099, 0x6b),
  (0x2119, 0x211b, 0x50), (0x212b, 0x212d, 0x41), (0x2460, 0x2468, 0x31), (0x24b6, 0x24cf, 0x41),
  (0x24d0, 0x24e9, 0x61), (0x32c0, 0x32c8, 0x31), (0x3358, 0x3361, 0x30), (0x33e0, 0x33e8, 0x31),
  (0xff01, 0xff5e, 0x21), (0x1d400, 0x1d419, 0x41), (0x1d41a, 0x1d433, 0x61),
  (0x1d434, 0x1d44d, 0x41), (0x1d44e, 0x1d454, 0x61), (0x1d456, 0x1d467, 0x69),
  (0x1d468, 0x1d481, 0x41), (0x1d482, 0x1d49b, 0x61), (0x1d4a9, 0x1d4ac, 0x4e),
  (0x1d4ae, 0x1d4b5, 0x53), (0x1d4b6, 0x1d4b9, 0x61), (0x1d4bd, 0x1d4c3, 0x68),
  (0x1d4c5, 0x1d4cf, 0x70), (0x1d4d0, 0x1d4e9, 0x41), (0x1d4ea, 0x1d503, 0x61),
  (0x1d507, 0x1d50a, 0x44), (0x1d50d, 0x1d514, 0x4a), (0x1d516, 0x1d51c, 0x53),
  (0x1d51e, 0x1d537, 0x61), (0x1d53b, 0x1d53e, 0x44), (0x1d540, 0x1d544, 0x49),
  (0x1d54a, 0x1d550, 0x53), (0x1d552, 0x1d56b, 0x61), (0x1d56c, 0x1d585, 0x41),
  (0x1d586, 0x1d59f, 0x61), (0x1d5a0, 0x1d5b9, 0x41), (0x1d5ba, 0x1d5d3, 0x61),
  (0x1d5d4, 0x1d5ed, 0x41), (0x1d5ee, 0x1d607, 0x61), (0x1d608, 0x1d621, 0x41),
  (0x1d622, 0x1d63b, 0x61), (0x1d63c, 0x1d655, 0x41), (0x1d656, 0x1d66f, 0x61),
  (0x1d670, 0x1d689, 0x41), (0x1d68a, 0x1d6a3, 0x61), (0x1d7ce, 0x1d7d7, 0x30),
  (0x1d7d8, 0x1d7e1, 0x30), (0x1d7e2, 0x1d7eb, 0x30), (0x1d7ec, 0x1d7f5, 0x30),
  (0x1d7f6, 0x1d7ff, 0x30), (0x1f130, 0x1f149, 0x41), (0x1fbf0, 0x1fbf9, 0x30)]

/-- The ASCII characters in the compatibility decomposition of a character. -/
def asciiPart (c : Char) : List Char :=
  let n := c.toNat
  if n < 0x80 then [c]
  else
    match consecutiveParts.find? fun (low, high, _) => low ≤ n && n ≤ high with
    | some (low, _, first) => [Char.ofNat (first + (n - low))]
    | none =>
      match sharedParts.find? fun (low, high, _) => low ≤ n && n ≤ high with
      | some (_, _, part) => part.toList
      | none => []

end ContractAudit.Text
