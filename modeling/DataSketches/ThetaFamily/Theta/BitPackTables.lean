import Mathlib

/-!
# The unrolled block functions

`pack_bits_1` to `pack_bits_63` and `unpack_bits_1` to `unpack_bits_63` are
unrolled by hand in the source.  Each is given here by the terms it combines: a
term `(i, r, m, l)` stands for `((x[i] >> r) & m) << l`, and a line of the source
is the list of terms it joins with `|`.  A whole byte that the source does not
mask has the mask `0xff`.
-/

namespace DataSketches

namespace BitPack

/-- The terms of an unrolled function, one list for each assignment. -/
abbrev BlockTable := List (List (ℕ × ℕ × ℕ × ℕ))

/-! ## `pack_bits_1` to `pack_bits_63` -/

def packBits1 : BlockTable := [
  [(0, 0, 0x1, 7), (1, 0, 0x1, 6), (2, 0, 0x1, 5), (3, 0, 0x1, 4), (4, 0, 0x1, 3), (5, 0, 0x1, 2),
   (6, 0, 0x1, 1), (7, 0, 0x1, 0)]]

def packBits2 : BlockTable := [
  [(0, 0, 0x3, 6), (1, 0, 0x3, 4), (2, 0, 0x3, 2), (3, 0, 0x3, 0)], [(4, 0, 0x3, 6), (5, 0, 0x3, 4),
   (6, 0, 0x3, 2), (7, 0, 0x3, 0)]]

def packBits3 : BlockTable := [
  [(0, 0, 0x7, 5), (1, 0, 0x7, 2), (2, 1, 0x3, 0)], [(2, 0, 0x1, 7), (3, 0, 0x7, 4), (4, 0, 0x7, 1),
   (5, 2, 0x1, 0)], [(5, 0, 0x3, 6), (6, 0, 0x7, 3), (7, 0, 0x7, 0)]]

def packBits4 : BlockTable := [
  [(0, 0, 0xf, 4), (1, 0, 0xf, 0)], [(2, 0, 0xf, 4), (3, 0, 0xf, 0)], [(4, 0, 0xf, 4),
   (5, 0, 0xf, 0)], [(6, 0, 0xf, 4), (7, 0, 0xf, 0)]]

def packBits5 : BlockTable := [
  [(0, 0, 0x1f, 3), (1, 2, 0x7, 0)], [(1, 0, 0x3, 6), (2, 0, 0x1f, 1), (3, 4, 0x1, 0)],
   [(3, 0, 0xf, 4), (4, 1, 0xf, 0)], [(4, 0, 0x1, 7), (5, 0, 0x1f, 2), (6, 3, 0x3, 0)],
   [(6, 0, 0x7, 5), (7, 0, 0x1f, 0)]]

def packBits6 : BlockTable := [
  [(0, 0, 0x3f, 2), (1, 4, 0x3, 0)], [(1, 0, 0xf, 4), (2, 2, 0xf, 0)], [(2, 0, 0x3, 6),
   (3, 0, 0x3f, 0)], [(4, 0, 0x3f, 2), (5, 4, 0x3, 0)], [(5, 0, 0xf, 4), (6, 2, 0xf, 0)],
   [(6, 0, 0x3, 6), (7, 0, 0x3f, 0)]]

def packBits7 : BlockTable := [
  [(0, 0, 0x7f, 1), (1, 6, 0x1, 0)], [(1, 0, 0x3f, 2), (2, 5, 0x3, 0)], [(2, 0, 0x1f, 3),
   (3, 4, 0x7, 0)], [(3, 0, 0xf, 4), (4, 3, 0xf, 0)], [(4, 0, 0x7, 5), (5, 2, 0x1f, 0)],
   [(5, 0, 0x3, 6), (6, 1, 0x3f, 0)], [(6, 0, 0x1, 7), (7, 0, 0x7f, 0)]]

def packBits8 : BlockTable := [
  [(0, 0, 0xff, 0)], [(1, 0, 0xff, 0)], [(2, 0, 0xff, 0)], [(3, 0, 0xff, 0)], [(4, 0, 0xff, 0)],
   [(5, 0, 0xff, 0)], [(6, 0, 0xff, 0)], [(7, 0, 0xff, 0)]]

def packBits9 : BlockTable := [
  [(0, 1, 0xff, 0)], [(0, 0, 0x1, 7), (1, 2, 0x7f, 0)], [(1, 0, 0x3, 6), (2, 3, 0x3f, 0)],
   [(2, 0, 0x7, 5), (3, 4, 0x1f, 0)], [(3, 0, 0xf, 4), (4, 5, 0xf, 0)], [(4, 0, 0x1f, 3),
   (5, 6, 0x7, 0)], [(5, 0, 0x3f, 2), (6, 7, 0x3, 0)], [(6, 0, 0x7f, 1), (7, 8, 0x1, 0)],
   [(7, 0, 0xff, 0)]]

def packBits10 : BlockTable := [
  [(0, 2, 0xff, 0)], [(0, 0, 0x3, 6), (1, 4, 0x3f, 0)], [(1, 0, 0xf, 4), (2, 6, 0xf, 0)],
   [(2, 0, 0x3f, 2), (3, 8, 0x3, 0)], [(3, 0, 0xff, 0)], [(4, 2, 0xff, 0)], [(4, 0, 0x3, 6),
   (5, 4, 0x3f, 0)], [(5, 0, 0xf, 4), (6, 6, 0xf, 0)], [(6, 0, 0x3f, 2), (7, 8, 0x3, 0)],
   [(7, 0, 0xff, 0)]]

def packBits11 : BlockTable := [
  [(0, 3, 0xff, 0)], [(0, 0, 0x7, 5), (1, 6, 0x1f, 0)], [(1, 0, 0x3f, 2), (2, 9, 0x3, 0)],
   [(2, 1, 0xff, 0)], [(2, 0, 0x1, 7), (3, 4, 0x7f, 0)], [(3, 0, 0xf, 4), (4, 7, 0xf, 0)],
   [(4, 0, 0x7f, 1), (5, 10, 0x1, 0)], [(5, 2, 0xff, 0)], [(5, 0, 0x3, 6), (6, 5, 0x3f, 0)],
   [(6, 0, 0x1f, 3), (7, 8, 0x7, 0)], [(7, 0, 0xff, 0)]]

def packBits12 : BlockTable := [
  [(0, 4, 0xff, 0)], [(0, 0, 0xf, 4), (1, 8, 0xf, 0)], [(1, 0, 0xff, 0)], [(2, 4, 0xff, 0)],
   [(2, 0, 0xf, 4), (3, 8, 0xf, 0)], [(3, 0, 0xff, 0)], [(4, 4, 0xff, 0)], [(4, 0, 0xf, 4),
   (5, 8, 0xf, 0)], [(5, 0, 0xff, 0)], [(6, 4, 0xff, 0)], [(6, 0, 0xf, 4), (7, 8, 0xf, 0)],
   [(7, 0, 0xff, 0)]]

def packBits13 : BlockTable := [
  [(0, 5, 0xff, 0)], [(0, 0, 0x1f, 3), (1, 10, 0x7, 0)], [(1, 2, 0xff, 0)], [(1, 0, 0x3, 6),
   (2, 7, 0x3f, 0)], [(2, 0, 0x7f, 1), (3, 12, 0x1, 0)], [(3, 4, 0xff, 0)], [(3, 0, 0xf, 4),
   (4, 9, 0xf, 0)], [(4, 1, 0xff, 0)], [(4, 0, 0x1, 7), (5, 6, 0x7f, 0)], [(5, 0, 0x3f, 2),
   (6, 11, 0x3, 0)], [(6, 3, 0xff, 0)], [(6, 0, 0x7, 5), (7, 8, 0x1f, 0)], [(7, 0, 0xff, 0)]]

def packBits14 : BlockTable := [
  [(0, 6, 0xff, 0)], [(0, 0, 0x3f, 2), (1, 12, 0x3, 0)], [(1, 4, 0xff, 0)], [(1, 0, 0xf, 4),
   (2, 10, 0xf, 0)], [(2, 2, 0xff, 0)], [(2, 0, 0x3, 6), (3, 8, 0x3f, 0)], [(3, 0, 0xff, 0)],
   [(4, 6, 0xff, 0)], [(4, 0, 0x3f, 2), (5, 12, 0x3, 0)], [(5, 4, 0xff, 0)], [(5, 0, 0xf, 4),
   (6, 10, 0xf, 0)], [(6, 2, 0xff, 0)], [(6, 0, 0x3, 6), (7, 8, 0x3f, 0)], [(7, 0, 0xff, 0)]]

def packBits15 : BlockTable := [
  [(0, 7, 0xff, 0)], [(0, 0, 0x7f, 1), (1, 14, 0x1, 0)], [(1, 6, 0xff, 0)], [(1, 0, 0x3f, 2),
   (2, 13, 0x3, 0)], [(2, 5, 0xff, 0)], [(2, 0, 0x1f, 3), (3, 12, 0x7, 0)], [(3, 4, 0xff, 0)],
   [(3, 0, 0xf, 4), (4, 11, 0xf, 0)], [(4, 3, 0xff, 0)], [(4, 0, 0x7, 5), (5, 10, 0x1f, 0)],
   [(5, 2, 0xff, 0)], [(5, 0, 0x3, 6), (6, 9, 0x3f, 0)], [(6, 1, 0xff, 0)], [(6, 0, 0x1, 7),
   (7, 8, 0x7f, 0)], [(7, 0, 0xff, 0)]]

def packBits16 : BlockTable := [
  [(0, 8, 0xff, 0)], [(0, 0, 0xff, 0)], [(1, 8, 0xff, 0)], [(1, 0, 0xff, 0)], [(2, 8, 0xff, 0)],
   [(2, 0, 0xff, 0)], [(3, 8, 0xff, 0)], [(3, 0, 0xff, 0)], [(4, 8, 0xff, 0)], [(4, 0, 0xff, 0)],
   [(5, 8, 0xff, 0)], [(5, 0, 0xff, 0)], [(6, 8, 0xff, 0)], [(6, 0, 0xff, 0)], [(7, 8, 0xff, 0)],
   [(7, 0, 0xff, 0)]]

def packBits17 : BlockTable := [
  [(0, 9, 0xff, 0)], [(0, 1, 0xff, 0)], [(0, 0, 0x1, 7), (1, 10, 0x7f, 0)], [(1, 2, 0xff, 0)],
   [(1, 0, 0x3, 6), (2, 11, 0x3f, 0)], [(2, 3, 0xff, 0)], [(2, 0, 0x7, 5), (3, 12, 0x1f, 0)],
   [(3, 4, 0xff, 0)], [(3, 0, 0xf, 4), (4, 13, 0xf, 0)], [(4, 5, 0xff, 0)], [(4, 0, 0x1f, 3),
   (5, 14, 0x7, 0)], [(5, 6, 0xff, 0)], [(5, 0, 0x3f, 2), (6, 15, 0x3, 0)], [(6, 7, 0xff, 0)],
   [(6, 0, 0x7f, 1), (7, 16, 0x1, 0)], [(7, 8, 0xff, 0)], [(7, 0, 0xff, 0)]]

def packBits18 : BlockTable := [
  [(0, 10, 0xff, 0)], [(0, 2, 0xff, 0)], [(0, 0, 0x3, 6), (1, 12, 0x3f, 0)], [(1, 4, 0xff, 0)],
   [(1, 0, 0xf, 4), (2, 14, 0xf, 0)], [(2, 6, 0xff, 0)], [(2, 0, 0x3f, 2), (3, 16, 0x3, 0)],
   [(3, 8, 0xff, 0)], [(3, 0, 0xff, 0)], [(4, 10, 0xff, 0)], [(4, 2, 0xff, 0)], [(4, 0, 0x3, 6),
   (5, 12, 0x3f, 0)], [(5, 4, 0xff, 0)], [(5, 0, 0xf, 4), (6, 14, 0xf, 0)], [(6, 6, 0xff, 0)],
   [(6, 0, 0x3f, 2), (7, 16, 0x3, 0)], [(7, 8, 0xff, 0)], [(7, 0, 0xff, 0)]]

def packBits19 : BlockTable := [
  [(0, 11, 0xff, 0)], [(0, 3, 0xff, 0)], [(0, 0, 0x7, 5), (1, 14, 0x1f, 0)], [(1, 6, 0xff, 0)],
   [(1, 0, 0x3f, 2), (2, 17, 0x3, 0)], [(2, 9, 0xff, 0)], [(2, 1, 0xff, 0)], [(2, 0, 0x1, 7),
   (3, 12, 0x7f, 0)], [(3, 4, 0xff, 0)], [(3, 0, 0xf, 4), (4, 15, 0xf, 0)], [(4, 7, 0xff, 0)],
   [(4, 0, 0x7f, 1), (5, 18, 0x1, 0)], [(5, 10, 0xff, 0)], [(5, 2, 0xff, 0)], [(5, 0, 0x3, 6),
   (6, 13, 0x3f, 0)], [(6, 5, 0xff, 0)], [(6, 0, 0x1f, 3), (7, 16, 0x7, 0)], [(7, 8, 0xff, 0)],
   [(7, 0, 0xff, 0)]]

def packBits20 : BlockTable := [
  [(0, 12, 0xff, 0)], [(0, 4, 0xff, 0)], [(0, 0, 0xf, 4), (1, 16, 0xf, 0)], [(1, 8, 0xff, 0)],
   [(1, 0, 0xff, 0)], [(2, 12, 0xff, 0)], [(2, 4, 0xff, 0)], [(2, 0, 0xf, 4), (3, 16, 0xf, 0)],
   [(3, 8, 0xff, 0)], [(3, 0, 0xff, 0)], [(4, 12, 0xff, 0)], [(4, 4, 0xff, 0)], [(4, 0, 0xf, 4),
   (5, 16, 0xf, 0)], [(5, 8, 0xff, 0)], [(5, 0, 0xff, 0)], [(6, 12, 0xff, 0)], [(6, 4, 0xff, 0)],
   [(6, 0, 0xf, 4), (7, 16, 0xf, 0)], [(7, 8, 0xff, 0)], [(7, 0, 0xff, 0)]]

def packBits21 : BlockTable := [
  [(0, 13, 0xff, 0)], [(0, 5, 0xff, 0)], [(0, 0, 0x1f, 3), (1, 18, 0x7, 0)], [(1, 10, 0xff, 0)],
   [(1, 2, 0xff, 0)], [(1, 0, 0x3, 6), (2, 15, 0x3f, 0)], [(2, 7, 0xff, 0)], [(2, 0, 0x7f, 1),
   (3, 20, 0x1, 0)], [(3, 12, 0xff, 0)], [(3, 4, 0xff, 0)], [(3, 0, 0xf, 4), (4, 17, 0xf, 0)],
   [(4, 9, 0xff, 0)], [(4, 1, 0xff, 0)], [(4, 0, 0x1, 7), (5, 14, 0x7f, 0)], [(5, 6, 0xff, 0)],
   [(5, 0, 0x3f, 2), (6, 19, 0x3, 0)], [(6, 11, 0xff, 0)], [(6, 3, 0xff, 0)], [(6, 0, 0x7, 5),
   (7, 16, 0x1f, 0)], [(7, 8, 0xff, 0)], [(7, 0, 0xff, 0)]]

def packBits22 : BlockTable := [
  [(0, 14, 0xff, 0)], [(0, 6, 0xff, 0)], [(0, 0, 0x3f, 2), (1, 20, 0x3, 0)], [(1, 12, 0xff, 0)],
   [(1, 4, 0xff, 0)], [(1, 0, 0xf, 4), (2, 18, 0xf, 0)], [(2, 10, 0xff, 0)], [(2, 2, 0xff, 0)],
   [(2, 0, 0x3, 6), (3, 16, 0x3f, 0)], [(3, 8, 0xff, 0)], [(3, 0, 0xff, 0)], [(4, 14, 0xff, 0)],
   [(4, 6, 0xff, 0)], [(4, 0, 0x3f, 2), (5, 20, 0x3, 0)], [(5, 12, 0xff, 0)], [(5, 4, 0xff, 0)],
   [(5, 0, 0xf, 4), (6, 18, 0xf, 0)], [(6, 10, 0xff, 0)], [(6, 2, 0xff, 0)], [(6, 0, 0x3, 6),
   (7, 16, 0x3f, 0)], [(7, 8, 0xff, 0)], [(7, 0, 0xff, 0)]]

def packBits23 : BlockTable := [
  [(0, 15, 0xff, 0)], [(0, 7, 0xff, 0)], [(0, 0, 0x7f, 1), (1, 22, 0x1, 0)], [(1, 14, 0xff, 0)],
   [(1, 6, 0xff, 0)], [(1, 0, 0x3f, 2), (2, 21, 0x3, 0)], [(2, 13, 0xff, 0)], [(2, 5, 0xff, 0)],
   [(2, 0, 0x1f, 3), (3, 20, 0x7, 0)], [(3, 12, 0xff, 0)], [(3, 4, 0xff, 0)], [(3, 0, 0xf, 4),
   (4, 19, 0xf, 0)], [(4, 11, 0xff, 0)], [(4, 3, 0xff, 0)], [(4, 0, 0x7, 5), (5, 18, 0x1f, 0)],
   [(5, 10, 0xff, 0)], [(5, 2, 0xff, 0)], [(5, 0, 0x3, 6), (6, 17, 0x3f, 0)], [(6, 9, 0xff, 0)],
   [(6, 1, 0xff, 0)], [(6, 0, 0x1, 7), (7, 16, 0x7f, 0)], [(7, 8, 0xff, 0)], [(7, 0, 0xff, 0)]]

def packBits24 : BlockTable := [
  [(0, 16, 0xff, 0)], [(0, 8, 0xff, 0)], [(0, 0, 0xff, 0)], [(1, 16, 0xff, 0)], [(1, 8, 0xff, 0)],
   [(1, 0, 0xff, 0)], [(2, 16, 0xff, 0)], [(2, 8, 0xff, 0)], [(2, 0, 0xff, 0)], [(3, 16, 0xff, 0)],
   [(3, 8, 0xff, 0)], [(3, 0, 0xff, 0)], [(4, 16, 0xff, 0)], [(4, 8, 0xff, 0)], [(4, 0, 0xff, 0)],
   [(5, 16, 0xff, 0)], [(5, 8, 0xff, 0)], [(5, 0, 0xff, 0)], [(6, 16, 0xff, 0)], [(6, 8, 0xff, 0)],
   [(6, 0, 0xff, 0)], [(7, 16, 0xff, 0)], [(7, 8, 0xff, 0)], [(7, 0, 0xff, 0)]]

def packBits25 : BlockTable := [
  [(0, 17, 0xff, 0)], [(0, 9, 0xff, 0)], [(0, 1, 0xff, 0)], [(0, 0, 0x1, 7), (1, 18, 0x7f, 0)],
   [(1, 10, 0xff, 0)], [(1, 2, 0xff, 0)], [(1, 0, 0x3, 6), (2, 19, 0x3f, 0)], [(2, 11, 0xff, 0)],
   [(2, 3, 0xff, 0)], [(2, 0, 0x7, 5), (3, 20, 0x1f, 0)], [(3, 12, 0xff, 0)], [(3, 4, 0xff, 0)],
   [(3, 0, 0xf, 4), (4, 21, 0xf, 0)], [(4, 13, 0xff, 0)], [(4, 5, 0xff, 0)], [(4, 0, 0x1f, 3),
   (5, 22, 0x7, 0)], [(5, 14, 0xff, 0)], [(5, 6, 0xff, 0)], [(5, 0, 0x3f, 2), (6, 23, 0x3, 0)],
   [(6, 15, 0xff, 0)], [(6, 7, 0xff, 0)], [(6, 0, 0x7f, 1), (7, 24, 0x1, 0)], [(7, 16, 0xff, 0)],
   [(7, 8, 0xff, 0)], [(7, 0, 0xff, 0)]]

def packBits26 : BlockTable := [
  [(0, 18, 0xff, 0)], [(0, 10, 0xff, 0)], [(0, 2, 0xff, 0)], [(0, 0, 0x3, 6), (1, 20, 0x3f, 0)],
   [(1, 12, 0xff, 0)], [(1, 4, 0xff, 0)], [(1, 0, 0xf, 4), (2, 22, 0xf, 0)], [(2, 14, 0xff, 0)],
   [(2, 6, 0xff, 0)], [(2, 0, 0x3f, 2), (3, 24, 0x3, 0)], [(3, 16, 0xff, 0)], [(3, 8, 0xff, 0)],
   [(3, 0, 0xff, 0)], [(4, 18, 0xff, 0)], [(4, 10, 0xff, 0)], [(4, 2, 0xff, 0)], [(4, 0, 0x3, 6),
   (5, 20, 0x3f, 0)], [(5, 12, 0xff, 0)], [(5, 4, 0xff, 0)], [(5, 0, 0xf, 4), (6, 22, 0xf, 0)],
   [(6, 14, 0xff, 0)], [(6, 6, 0xff, 0)], [(6, 0, 0x3f, 2), (7, 24, 0x3, 0)], [(7, 16, 0xff, 0)],
   [(7, 8, 0xff, 0)], [(7, 0, 0xff, 0)]]

def packBits27 : BlockTable := [
  [(0, 19, 0xff, 0)], [(0, 11, 0xff, 0)], [(0, 3, 0xff, 0)], [(0, 0, 0x7, 5), (1, 22, 0x1f, 0)],
   [(1, 14, 0xff, 0)], [(1, 6, 0xff, 0)], [(1, 0, 0x3f, 2), (2, 25, 0x3, 0)], [(2, 17, 0xff, 0)],
   [(2, 9, 0xff, 0)], [(2, 1, 0xff, 0)], [(2, 0, 0x1, 7), (3, 20, 0x7f, 0)], [(3, 12, 0xff, 0)],
   [(3, 4, 0xff, 0)], [(3, 0, 0xf, 4), (4, 23, 0xf, 0)], [(4, 15, 0xff, 0)], [(4, 7, 0xff, 0)],
   [(4, 0, 0x7f, 1), (5, 26, 0x1, 0)], [(5, 18, 0xff, 0)], [(5, 10, 0xff, 0)], [(5, 2, 0xff, 0)],
   [(5, 0, 0x3, 6), (6, 21, 0x3f, 0)], [(6, 13, 0xff, 0)], [(6, 5, 0xff, 0)], [(6, 0, 0x1f, 3),
   (7, 24, 0x7, 0)], [(7, 16, 0xff, 0)], [(7, 8, 0xff, 0)], [(7, 0, 0xff, 0)]]

def packBits28 : BlockTable := [
  [(0, 20, 0xff, 0)], [(0, 12, 0xff, 0)], [(0, 4, 0xff, 0)], [(0, 0, 0xf, 4), (1, 24, 0xf, 0)],
   [(1, 16, 0xff, 0)], [(1, 8, 0xff, 0)], [(1, 0, 0xff, 0)], [(2, 20, 0xff, 0)], [(2, 12, 0xff, 0)],
   [(2, 4, 0xff, 0)], [(2, 0, 0xf, 4), (3, 24, 0xf, 0)], [(3, 16, 0xff, 0)], [(3, 8, 0xff, 0)],
   [(3, 0, 0xff, 0)], [(4, 20, 0xff, 0)], [(4, 12, 0xff, 0)], [(4, 4, 0xff, 0)], [(4, 0, 0xf, 4),
   (5, 24, 0xf, 0)], [(5, 16, 0xff, 0)], [(5, 8, 0xff, 0)], [(5, 0, 0xff, 0)], [(6, 20, 0xff, 0)],
   [(6, 12, 0xff, 0)], [(6, 4, 0xff, 0)], [(6, 0, 0xf, 4), (7, 24, 0xf, 0)], [(7, 16, 0xff, 0)],
   [(7, 8, 0xff, 0)], [(7, 0, 0xff, 0)]]

def packBits29 : BlockTable := [
  [(0, 21, 0xff, 0)], [(0, 13, 0xff, 0)], [(0, 5, 0xff, 0)], [(0, 0, 0x1f, 3), (1, 26, 0x7, 0)],
   [(1, 18, 0xff, 0)], [(1, 10, 0xff, 0)], [(1, 2, 0xff, 0)], [(1, 0, 0x3, 6), (2, 23, 0x3f, 0)],
   [(2, 15, 0xff, 0)], [(2, 7, 0xff, 0)], [(2, 0, 0x7f, 1), (3, 28, 0x1, 0)], [(3, 20, 0xff, 0)],
   [(3, 12, 0xff, 0)], [(3, 4, 0xff, 0)], [(3, 0, 0xf, 4), (4, 25, 0xf, 0)], [(4, 17, 0xff, 0)],
   [(4, 9, 0xff, 0)], [(4, 1, 0xff, 0)], [(4, 0, 0x1, 7), (5, 22, 0x7f, 0)], [(5, 14, 0xff, 0)],
   [(5, 6, 0xff, 0)], [(5, 0, 0x3f, 2), (6, 27, 0x3, 0)], [(6, 19, 0xff, 0)], [(6, 11, 0xff, 0)],
   [(6, 3, 0xff, 0)], [(6, 0, 0x7, 5), (7, 24, 0x1f, 0)], [(7, 16, 0xff, 0)], [(7, 8, 0xff, 0)],
   [(7, 0, 0xff, 0)]]

def packBits30 : BlockTable := [
  [(0, 22, 0xff, 0)], [(0, 14, 0xff, 0)], [(0, 6, 0xff, 0)], [(0, 0, 0x3f, 2), (1, 28, 0x3, 0)],
   [(1, 20, 0xff, 0)], [(1, 12, 0xff, 0)], [(1, 4, 0xff, 0)], [(1, 0, 0xf, 4), (2, 26, 0xf, 0)],
   [(2, 18, 0xff, 0)], [(2, 10, 0xff, 0)], [(2, 2, 0xff, 0)], [(2, 0, 0x3, 6), (3, 24, 0x3f, 0)],
   [(3, 16, 0xff, 0)], [(3, 8, 0xff, 0)], [(3, 0, 0xff, 0)], [(4, 22, 0xff, 0)], [(4, 14, 0xff, 0)],
   [(4, 6, 0xff, 0)], [(4, 0, 0x3f, 2), (5, 28, 0x3, 0)], [(5, 20, 0xff, 0)], [(5, 12, 0xff, 0)],
   [(5, 4, 0xff, 0)], [(5, 0, 0xf, 4), (6, 26, 0xf, 0)], [(6, 18, 0xff, 0)], [(6, 10, 0xff, 0)],
   [(6, 2, 0xff, 0)], [(6, 0, 0x3, 6), (7, 24, 0x3f, 0)], [(7, 16, 0xff, 0)], [(7, 8, 0xff, 0)],
   [(7, 0, 0xff, 0)]]

def packBits31 : BlockTable := [
  [(0, 23, 0xff, 0)], [(0, 15, 0xff, 0)], [(0, 7, 0xff, 0)], [(0, 0, 0x7f, 1), (1, 30, 0x1, 0)],
   [(1, 22, 0xff, 0)], [(1, 14, 0xff, 0)], [(1, 6, 0xff, 0)], [(1, 0, 0x3f, 2), (2, 29, 0x3, 0)],
   [(2, 21, 0xff, 0)], [(2, 13, 0xff, 0)], [(2, 5, 0xff, 0)], [(2, 0, 0x1f, 3), (3, 28, 0x7, 0)],
   [(3, 20, 0xff, 0)], [(3, 12, 0xff, 0)], [(3, 4, 0xff, 0)], [(3, 0, 0xf, 4), (4, 27, 0xf, 0)],
   [(4, 19, 0xff, 0)], [(4, 11, 0xff, 0)], [(4, 3, 0xff, 0)], [(4, 0, 0x7, 5), (5, 26, 0x1f, 0)],
   [(5, 18, 0xff, 0)], [(5, 10, 0xff, 0)], [(5, 2, 0xff, 0)], [(5, 0, 0x3, 6), (6, 25, 0x3f, 0)],
   [(6, 17, 0xff, 0)], [(6, 9, 0xff, 0)], [(6, 1, 0xff, 0)], [(6, 0, 0x1, 7), (7, 24, 0x7f, 0)],
   [(7, 16, 0xff, 0)], [(7, 8, 0xff, 0)], [(7, 0, 0xff, 0)]]

def packBits32 : BlockTable := [
  [(0, 24, 0xff, 0)], [(0, 16, 0xff, 0)], [(0, 8, 0xff, 0)], [(0, 0, 0xff, 0)], [(1, 24, 0xff, 0)],
   [(1, 16, 0xff, 0)], [(1, 8, 0xff, 0)], [(1, 0, 0xff, 0)], [(2, 24, 0xff, 0)], [(2, 16, 0xff, 0)],
   [(2, 8, 0xff, 0)], [(2, 0, 0xff, 0)], [(3, 24, 0xff, 0)], [(3, 16, 0xff, 0)], [(3, 8, 0xff, 0)],
   [(3, 0, 0xff, 0)], [(4, 24, 0xff, 0)], [(4, 16, 0xff, 0)], [(4, 8, 0xff, 0)], [(4, 0, 0xff, 0)],
   [(5, 24, 0xff, 0)], [(5, 16, 0xff, 0)], [(5, 8, 0xff, 0)], [(5, 0, 0xff, 0)], [(6, 24, 0xff, 0)],
   [(6, 16, 0xff, 0)], [(6, 8, 0xff, 0)], [(6, 0, 0xff, 0)], [(7, 24, 0xff, 0)], [(7, 16, 0xff, 0)],
   [(7, 8, 0xff, 0)], [(7, 0, 0xff, 0)]]

def packBits33 : BlockTable := [
  [(0, 25, 0xff, 0)], [(0, 17, 0xff, 0)], [(0, 9, 0xff, 0)], [(0, 1, 0xff, 0)], [(0, 0, 0x1, 7),
   (1, 26, 0x7f, 0)], [(1, 18, 0xff, 0)], [(1, 10, 0xff, 0)], [(1, 2, 0xff, 0)], [(1, 0, 0x3, 6),
   (2, 27, 0x3f, 0)], [(2, 19, 0xff, 0)], [(2, 11, 0xff, 0)], [(2, 3, 0xff, 0)], [(2, 0, 0x7, 5),
   (3, 28, 0x1f, 0)], [(3, 20, 0xff, 0)], [(3, 12, 0xff, 0)], [(3, 4, 0xff, 0)], [(3, 0, 0xf, 4),
   (4, 29, 0xf, 0)], [(4, 21, 0xff, 0)], [(4, 13, 0xff, 0)], [(4, 5, 0xff, 0)], [(4, 0, 0x1f, 3),
   (5, 30, 0x7, 0)], [(5, 22, 0xff, 0)], [(5, 14, 0xff, 0)], [(5, 6, 0xff, 0)], [(5, 0, 0x3f, 2),
   (6, 31, 0x3, 0)], [(6, 23, 0xff, 0)], [(6, 15, 0xff, 0)], [(6, 7, 0xff, 0)], [(6, 0, 0x7f, 1),
   (7, 32, 0x1, 0)], [(7, 24, 0xff, 0)], [(7, 16, 0xff, 0)], [(7, 8, 0xff, 0)], [(7, 0, 0xff, 0)]]

def packBits34 : BlockTable := [
  [(0, 26, 0xff, 0)], [(0, 18, 0xff, 0)], [(0, 10, 0xff, 0)], [(0, 2, 0xff, 0)], [(0, 0, 0x3, 6),
   (1, 28, 0x3f, 0)], [(1, 20, 0xff, 0)], [(1, 12, 0xff, 0)], [(1, 4, 0xff, 0)], [(1, 0, 0xf, 4),
   (2, 30, 0xf, 0)], [(2, 22, 0xff, 0)], [(2, 14, 0xff, 0)], [(2, 6, 0xff, 0)], [(2, 0, 0x3f, 2),
   (3, 32, 0x3, 0)], [(3, 24, 0xff, 0)], [(3, 16, 0xff, 0)], [(3, 8, 0xff, 0)], [(3, 0, 0xff, 0)],
   [(4, 26, 0xff, 0)], [(4, 18, 0xff, 0)], [(4, 10, 0xff, 0)], [(4, 2, 0xff, 0)], [(4, 0, 0x3, 6),
   (5, 28, 0x3f, 0)], [(5, 20, 0xff, 0)], [(5, 12, 0xff, 0)], [(5, 4, 0xff, 0)], [(5, 0, 0xf, 4),
   (6, 30, 0xf, 0)], [(6, 22, 0xff, 0)], [(6, 14, 0xff, 0)], [(6, 6, 0xff, 0)], [(6, 0, 0x3f, 2),
   (7, 32, 0x3, 0)], [(7, 24, 0xff, 0)], [(7, 16, 0xff, 0)], [(7, 8, 0xff, 0)], [(7, 0, 0xff, 0)]]

def packBits35 : BlockTable := [
  [(0, 27, 0xff, 0)], [(0, 19, 0xff, 0)], [(0, 11, 0xff, 0)], [(0, 3, 0xff, 0)], [(0, 0, 0x7, 5),
   (1, 30, 0x1f, 0)], [(1, 22, 0xff, 0)], [(1, 14, 0xff, 0)], [(1, 6, 0xff, 0)], [(1, 0, 0x3f, 2),
   (2, 33, 0x3, 0)], [(2, 25, 0xff, 0)], [(2, 17, 0xff, 0)], [(2, 9, 0xff, 0)], [(2, 1, 0xff, 0)],
   [(2, 0, 0x1, 7), (3, 28, 0x7f, 0)], [(3, 20, 0xff, 0)], [(3, 12, 0xff, 0)], [(3, 4, 0xff, 0)],
   [(3, 0, 0xf, 4), (4, 31, 0xf, 0)], [(4, 23, 0xff, 0)], [(4, 15, 0xff, 0)], [(4, 7, 0xff, 0)],
   [(4, 0, 0x7f, 1), (5, 34, 0x1, 0)], [(5, 26, 0xff, 0)], [(5, 18, 0xff, 0)], [(5, 10, 0xff, 0)],
   [(5, 2, 0xff, 0)], [(5, 0, 0x3, 6), (6, 29, 0x3f, 0)], [(6, 21, 0xff, 0)], [(6, 13, 0xff, 0)],
   [(6, 5, 0xff, 0)], [(6, 0, 0x1f, 3), (7, 32, 0x7, 0)], [(7, 24, 0xff, 0)], [(7, 16, 0xff, 0)],
   [(7, 8, 0xff, 0)], [(7, 0, 0xff, 0)]]

def packBits36 : BlockTable := [
  [(0, 28, 0xff, 0)], [(0, 20, 0xff, 0)], [(0, 12, 0xff, 0)], [(0, 4, 0xff, 0)], [(0, 0, 0xf, 4),
   (1, 32, 0xf, 0)], [(1, 24, 0xff, 0)], [(1, 16, 0xff, 0)], [(1, 8, 0xff, 0)], [(1, 0, 0xff, 0)],
   [(2, 28, 0xff, 0)], [(2, 20, 0xff, 0)], [(2, 12, 0xff, 0)], [(2, 4, 0xff, 0)], [(2, 0, 0xf, 4),
   (3, 32, 0xf, 0)], [(3, 24, 0xff, 0)], [(3, 16, 0xff, 0)], [(3, 8, 0xff, 0)], [(3, 0, 0xff, 0)],
   [(4, 28, 0xff, 0)], [(4, 20, 0xff, 0)], [(4, 12, 0xff, 0)], [(4, 4, 0xff, 0)], [(4, 0, 0xf, 4),
   (5, 32, 0xf, 0)], [(5, 24, 0xff, 0)], [(5, 16, 0xff, 0)], [(5, 8, 0xff, 0)], [(5, 0, 0xff, 0)],
   [(6, 28, 0xff, 0)], [(6, 20, 0xff, 0)], [(6, 12, 0xff, 0)], [(6, 4, 0xff, 0)], [(6, 0, 0xf, 4),
   (7, 32, 0xf, 0)], [(7, 24, 0xff, 0)], [(7, 16, 0xff, 0)], [(7, 8, 0xff, 0)], [(7, 0, 0xff, 0)]]

def packBits37 : BlockTable := [
  [(0, 29, 0xff, 0)], [(0, 21, 0xff, 0)], [(0, 13, 0xff, 0)], [(0, 5, 0xff, 0)], [(0, 0, 0x1f, 3),
   (1, 34, 0x7, 0)], [(1, 26, 0xff, 0)], [(1, 18, 0xff, 0)], [(1, 10, 0xff, 0)], [(1, 2, 0xff, 0)],
   [(1, 0, 0x3, 6), (2, 31, 0x3f, 0)], [(2, 23, 0xff, 0)], [(2, 15, 0xff, 0)], [(2, 7, 0xff, 0)],
   [(2, 0, 0x7f, 1), (3, 36, 0x1, 0)], [(3, 28, 0xff, 0)], [(3, 20, 0xff, 0)], [(3, 12, 0xff, 0)],
   [(3, 4, 0xff, 0)], [(3, 0, 0xf, 4), (4, 33, 0xf, 0)], [(4, 25, 0xff, 0)], [(4, 17, 0xff, 0)],
   [(4, 9, 0xff, 0)], [(4, 1, 0xff, 0)], [(4, 0, 0x1, 7), (5, 30, 0x7f, 0)], [(5, 22, 0xff, 0)],
   [(5, 14, 0xff, 0)], [(5, 6, 0xff, 0)], [(5, 0, 0x3f, 2), (6, 35, 0x3, 0)], [(6, 27, 0xff, 0)],
   [(6, 19, 0xff, 0)], [(6, 11, 0xff, 0)], [(6, 3, 0xff, 0)], [(6, 0, 0x7, 5), (7, 32, 0x1f, 0)],
   [(7, 24, 0xff, 0)], [(7, 16, 0xff, 0)], [(7, 8, 0xff, 0)], [(7, 0, 0xff, 0)]]

def packBits38 : BlockTable := [
  [(0, 30, 0xff, 0)], [(0, 22, 0xff, 0)], [(0, 14, 0xff, 0)], [(0, 6, 0xff, 0)], [(0, 0, 0x3f, 2),
   (1, 36, 0x3, 0)], [(1, 28, 0xff, 0)], [(1, 20, 0xff, 0)], [(1, 12, 0xff, 0)], [(1, 4, 0xff, 0)],
   [(1, 0, 0xf, 4), (2, 34, 0xf, 0)], [(2, 26, 0xff, 0)], [(2, 18, 0xff, 0)], [(2, 10, 0xff, 0)],
   [(2, 2, 0xff, 0)], [(2, 0, 0x3, 6), (3, 32, 0x3f, 0)], [(3, 24, 0xff, 0)], [(3, 16, 0xff, 0)],
   [(3, 8, 0xff, 0)], [(3, 0, 0xff, 0)], [(4, 30, 0xff, 0)], [(4, 22, 0xff, 0)], [(4, 14, 0xff, 0)],
   [(4, 6, 0xff, 0)], [(4, 0, 0x3f, 2), (5, 36, 0x3, 0)], [(5, 28, 0xff, 0)], [(5, 20, 0xff, 0)],
   [(5, 12, 0xff, 0)], [(5, 4, 0xff, 0)], [(5, 0, 0xf, 4), (6, 34, 0xf, 0)], [(6, 26, 0xff, 0)],
   [(6, 18, 0xff, 0)], [(6, 10, 0xff, 0)], [(6, 2, 0xff, 0)], [(6, 0, 0x3, 6), (7, 32, 0x3f, 0)],
   [(7, 24, 0xff, 0)], [(7, 16, 0xff, 0)], [(7, 8, 0xff, 0)], [(7, 0, 0xff, 0)]]

def packBits39 : BlockTable := [
  [(0, 31, 0xff, 0)], [(0, 23, 0xff, 0)], [(0, 15, 0xff, 0)], [(0, 7, 0xff, 0)], [(0, 0, 0x7f, 1),
   (1, 38, 0x1, 0)], [(1, 30, 0xff, 0)], [(1, 22, 0xff, 0)], [(1, 14, 0xff, 0)], [(1, 6, 0xff, 0)],
   [(1, 0, 0x3f, 2), (2, 37, 0x3, 0)], [(2, 29, 0xff, 0)], [(2, 21, 0xff, 0)], [(2, 13, 0xff, 0)],
   [(2, 5, 0xff, 0)], [(2, 0, 0x1f, 3), (3, 36, 0x7, 0)], [(3, 28, 0xff, 0)], [(3, 20, 0xff, 0)],
   [(3, 12, 0xff, 0)], [(3, 4, 0xff, 0)], [(3, 0, 0xf, 4), (4, 35, 0xf, 0)], [(4, 27, 0xff, 0)],
   [(4, 19, 0xff, 0)], [(4, 11, 0xff, 0)], [(4, 3, 0xff, 0)], [(4, 0, 0x7, 5), (5, 34, 0x1f, 0)],
   [(5, 26, 0xff, 0)], [(5, 18, 0xff, 0)], [(5, 10, 0xff, 0)], [(5, 2, 0xff, 0)], [(5, 0, 0x3, 6),
   (6, 33, 0x3f, 0)], [(6, 25, 0xff, 0)], [(6, 17, 0xff, 0)], [(6, 9, 0xff, 0)], [(6, 1, 0xff, 0)],
   [(6, 0, 0x1, 7), (7, 32, 0x7f, 0)], [(7, 24, 0xff, 0)], [(7, 16, 0xff, 0)], [(7, 8, 0xff, 0)],
   [(7, 0, 0xff, 0)]]

def packBits40 : BlockTable := [
  [(0, 32, 0xff, 0)], [(0, 24, 0xff, 0)], [(0, 16, 0xff, 0)], [(0, 8, 0xff, 0)], [(0, 0, 0xff, 0)],
   [(1, 32, 0xff, 0)], [(1, 24, 0xff, 0)], [(1, 16, 0xff, 0)], [(1, 8, 0xff, 0)], [(1, 0, 0xff, 0)],
   [(2, 32, 0xff, 0)], [(2, 24, 0xff, 0)], [(2, 16, 0xff, 0)], [(2, 8, 0xff, 0)], [(2, 0, 0xff, 0)],
   [(3, 32, 0xff, 0)], [(3, 24, 0xff, 0)], [(3, 16, 0xff, 0)], [(3, 8, 0xff, 0)], [(3, 0, 0xff, 0)],
   [(4, 32, 0xff, 0)], [(4, 24, 0xff, 0)], [(4, 16, 0xff, 0)], [(4, 8, 0xff, 0)], [(4, 0, 0xff, 0)],
   [(5, 32, 0xff, 0)], [(5, 24, 0xff, 0)], [(5, 16, 0xff, 0)], [(5, 8, 0xff, 0)], [(5, 0, 0xff, 0)],
   [(6, 32, 0xff, 0)], [(6, 24, 0xff, 0)], [(6, 16, 0xff, 0)], [(6, 8, 0xff, 0)], [(6, 0, 0xff, 0)],
   [(7, 32, 0xff, 0)], [(7, 24, 0xff, 0)], [(7, 16, 0xff, 0)], [(7, 8, 0xff, 0)], [(7, 0, 0xff, 0)]]

def packBits41 : BlockTable := [
  [(0, 33, 0xff, 0)], [(0, 25, 0xff, 0)], [(0, 17, 0xff, 0)], [(0, 9, 0xff, 0)], [(0, 1, 0xff, 0)],
   [(0, 0, 0x1, 7), (1, 34, 0x7f, 0)], [(1, 26, 0xff, 0)], [(1, 18, 0xff, 0)], [(1, 10, 0xff, 0)],
   [(1, 2, 0xff, 0)], [(1, 0, 0x3, 6), (2, 35, 0x3f, 0)], [(2, 27, 0xff, 0)], [(2, 19, 0xff, 0)],
   [(2, 11, 0xff, 0)], [(2, 3, 0xff, 0)], [(2, 0, 0x7, 5), (3, 36, 0x1f, 0)], [(3, 28, 0xff, 0)],
   [(3, 20, 0xff, 0)], [(3, 12, 0xff, 0)], [(3, 4, 0xff, 0)], [(3, 0, 0xf, 4), (4, 37, 0xf, 0)],
   [(4, 29, 0xff, 0)], [(4, 21, 0xff, 0)], [(4, 13, 0xff, 0)], [(4, 5, 0xff, 0)], [(4, 0, 0x1f, 3),
   (5, 38, 0x7, 0)], [(5, 30, 0xff, 0)], [(5, 22, 0xff, 0)], [(5, 14, 0xff, 0)], [(5, 6, 0xff, 0)],
   [(5, 0, 0x3f, 2), (6, 39, 0x3, 0)], [(6, 31, 0xff, 0)], [(6, 23, 0xff, 0)], [(6, 15, 0xff, 0)],
   [(6, 7, 0xff, 0)], [(6, 0, 0x7f, 1), (7, 40, 0x1, 0)], [(7, 32, 0xff, 0)], [(7, 24, 0xff, 0)],
   [(7, 16, 0xff, 0)], [(7, 8, 0xff, 0)], [(7, 0, 0xff, 0)]]

def packBits42 : BlockTable := [
  [(0, 34, 0xff, 0)], [(0, 26, 0xff, 0)], [(0, 18, 0xff, 0)], [(0, 10, 0xff, 0)], [(0, 2, 0xff, 0)],
   [(0, 0, 0x3, 6), (1, 36, 0x3f, 0)], [(1, 28, 0xff, 0)], [(1, 20, 0xff, 0)], [(1, 12, 0xff, 0)],
   [(1, 4, 0xff, 0)], [(1, 0, 0xf, 4), (2, 38, 0xf, 0)], [(2, 30, 0xff, 0)], [(2, 22, 0xff, 0)],
   [(2, 14, 0xff, 0)], [(2, 6, 0xff, 0)], [(2, 0, 0x3f, 2), (3, 40, 0x3, 0)], [(3, 32, 0xff, 0)],
   [(3, 24, 0xff, 0)], [(3, 16, 0xff, 0)], [(3, 8, 0xff, 0)], [(3, 0, 0xff, 0)], [(4, 34, 0xff, 0)],
   [(4, 26, 0xff, 0)], [(4, 18, 0xff, 0)], [(4, 10, 0xff, 0)], [(4, 2, 0xff, 0)], [(4, 0, 0x3, 6),
   (5, 36, 0x3f, 0)], [(5, 28, 0xff, 0)], [(5, 20, 0xff, 0)], [(5, 12, 0xff, 0)], [(5, 4, 0xff, 0)],
   [(5, 0, 0xf, 4), (6, 38, 0xf, 0)], [(6, 30, 0xff, 0)], [(6, 22, 0xff, 0)], [(6, 14, 0xff, 0)],
   [(6, 6, 0xff, 0)], [(6, 0, 0x3f, 2), (7, 40, 0x3, 0)], [(7, 32, 0xff, 0)], [(7, 24, 0xff, 0)],
   [(7, 16, 0xff, 0)], [(7, 8, 0xff, 0)], [(7, 0, 0xff, 0)]]

def packBits43 : BlockTable := [
  [(0, 35, 0xff, 0)], [(0, 27, 0xff, 0)], [(0, 19, 0xff, 0)], [(0, 11, 0xff, 0)], [(0, 3, 0xff, 0)],
   [(0, 0, 0x7, 5), (1, 38, 0x1f, 0)], [(1, 30, 0xff, 0)], [(1, 22, 0xff, 0)], [(1, 14, 0xff, 0)],
   [(1, 6, 0xff, 0)], [(1, 0, 0x3f, 2), (2, 41, 0x3, 0)], [(2, 33, 0xff, 0)], [(2, 25, 0xff, 0)],
   [(2, 17, 0xff, 0)], [(2, 9, 0xff, 0)], [(2, 1, 0xff, 0)], [(2, 0, 0x1, 7), (3, 36, 0x7f, 0)],
   [(3, 28, 0xff, 0)], [(3, 20, 0xff, 0)], [(3, 12, 0xff, 0)], [(3, 4, 0xff, 0)], [(3, 0, 0xf, 4),
   (4, 39, 0xf, 0)], [(4, 31, 0xff, 0)], [(4, 23, 0xff, 0)], [(4, 15, 0xff, 0)], [(4, 7, 0xff, 0)],
   [(4, 0, 0x7f, 1), (5, 42, 0x1, 0)], [(5, 34, 0xff, 0)], [(5, 26, 0xff, 0)], [(5, 18, 0xff, 0)],
   [(5, 10, 0xff, 0)], [(5, 2, 0xff, 0)], [(5, 0, 0x3, 6), (6, 37, 0x3f, 0)], [(6, 29, 0xff, 0)],
   [(6, 21, 0xff, 0)], [(6, 13, 0xff, 0)], [(6, 5, 0xff, 0)], [(6, 0, 0x1f, 3), (7, 40, 0x7, 0)],
   [(7, 32, 0xff, 0)], [(7, 24, 0xff, 0)], [(7, 16, 0xff, 0)], [(7, 8, 0xff, 0)], [(7, 0, 0xff, 0)]]

def packBits44 : BlockTable := [
  [(0, 36, 0xff, 0)], [(0, 28, 0xff, 0)], [(0, 20, 0xff, 0)], [(0, 12, 0xff, 0)], [(0, 4, 0xff, 0)],
   [(0, 0, 0xf, 4), (1, 40, 0xf, 0)], [(1, 32, 0xff, 0)], [(1, 24, 0xff, 0)], [(1, 16, 0xff, 0)],
   [(1, 8, 0xff, 0)], [(1, 0, 0xff, 0)], [(2, 36, 0xff, 0)], [(2, 28, 0xff, 0)], [(2, 20, 0xff, 0)],
   [(2, 12, 0xff, 0)], [(2, 4, 0xff, 0)], [(2, 0, 0xf, 4), (3, 40, 0xf, 0)], [(3, 32, 0xff, 0)],
   [(3, 24, 0xff, 0)], [(3, 16, 0xff, 0)], [(3, 8, 0xff, 0)], [(3, 0, 0xff, 0)], [(4, 36, 0xff, 0)],
   [(4, 28, 0xff, 0)], [(4, 20, 0xff, 0)], [(4, 12, 0xff, 0)], [(4, 4, 0xff, 0)], [(4, 0, 0xf, 4),
   (5, 40, 0xf, 0)], [(5, 32, 0xff, 0)], [(5, 24, 0xff, 0)], [(5, 16, 0xff, 0)], [(5, 8, 0xff, 0)],
   [(5, 0, 0xff, 0)], [(6, 36, 0xff, 0)], [(6, 28, 0xff, 0)], [(6, 20, 0xff, 0)],
   [(6, 12, 0xff, 0)], [(6, 4, 0xff, 0)], [(6, 0, 0xf, 4), (7, 40, 0xf, 0)], [(7, 32, 0xff, 0)],
   [(7, 24, 0xff, 0)], [(7, 16, 0xff, 0)], [(7, 8, 0xff, 0)], [(7, 0, 0xff, 0)]]

def packBits45 : BlockTable := [
  [(0, 37, 0xff, 0)], [(0, 29, 0xff, 0)], [(0, 21, 0xff, 0)], [(0, 13, 0xff, 0)], [(0, 5, 0xff, 0)],
   [(0, 0, 0x1f, 3), (1, 42, 0x7, 0)], [(1, 34, 0xff, 0)], [(1, 26, 0xff, 0)], [(1, 18, 0xff, 0)],
   [(1, 10, 0xff, 0)], [(1, 2, 0xff, 0)], [(1, 0, 0x3, 6), (2, 39, 0x3f, 0)], [(2, 31, 0xff, 0)],
   [(2, 23, 0xff, 0)], [(2, 15, 0xff, 0)], [(2, 7, 0xff, 0)], [(2, 0, 0x7f, 1), (3, 44, 0x1, 0)],
   [(3, 36, 0xff, 0)], [(3, 28, 0xff, 0)], [(3, 20, 0xff, 0)], [(3, 12, 0xff, 0)],
   [(3, 4, 0xff, 0)], [(3, 0, 0xf, 4), (4, 41, 0xf, 0)], [(4, 33, 0xff, 0)], [(4, 25, 0xff, 0)],
   [(4, 17, 0xff, 0)], [(4, 9, 0xff, 0)], [(4, 1, 0xff, 0)], [(4, 0, 0x1, 7), (5, 38, 0x7f, 0)],
   [(5, 30, 0xff, 0)], [(5, 22, 0xff, 0)], [(5, 14, 0xff, 0)], [(5, 6, 0xff, 0)], [(5, 0, 0x3f, 2),
   (6, 43, 0x3, 0)], [(6, 35, 0xff, 0)], [(6, 27, 0xff, 0)], [(6, 19, 0xff, 0)], [(6, 11, 0xff, 0)],
   [(6, 3, 0xff, 0)], [(6, 0, 0x7, 5), (7, 40, 0x1f, 0)], [(7, 32, 0xff, 0)], [(7, 24, 0xff, 0)],
   [(7, 16, 0xff, 0)], [(7, 8, 0xff, 0)], [(7, 0, 0xff, 0)]]

def packBits46 : BlockTable := [
  [(0, 38, 0xff, 0)], [(0, 30, 0xff, 0)], [(0, 22, 0xff, 0)], [(0, 14, 0xff, 0)], [(0, 6, 0xff, 0)],
   [(0, 0, 0x3f, 2), (1, 44, 0x3, 0)], [(1, 36, 0xff, 0)], [(1, 28, 0xff, 0)], [(1, 20, 0xff, 0)],
   [(1, 12, 0xff, 0)], [(1, 4, 0xff, 0)], [(1, 0, 0xf, 4), (2, 42, 0xf, 0)], [(2, 34, 0xff, 0)],
   [(2, 26, 0xff, 0)], [(2, 18, 0xff, 0)], [(2, 10, 0xff, 0)], [(2, 2, 0xff, 0)], [(2, 0, 0x3, 6),
   (3, 40, 0x3f, 0)], [(3, 32, 0xff, 0)], [(3, 24, 0xff, 0)], [(3, 16, 0xff, 0)], [(3, 8, 0xff, 0)],
   [(3, 0, 0xff, 0)], [(4, 38, 0xff, 0)], [(4, 30, 0xff, 0)], [(4, 22, 0xff, 0)],
   [(4, 14, 0xff, 0)], [(4, 6, 0xff, 0)], [(4, 0, 0x3f, 2), (5, 44, 0x3, 0)], [(5, 36, 0xff, 0)],
   [(5, 28, 0xff, 0)], [(5, 20, 0xff, 0)], [(5, 12, 0xff, 0)], [(5, 4, 0xff, 0)], [(5, 0, 0xf, 4),
   (6, 42, 0xf, 0)], [(6, 34, 0xff, 0)], [(6, 26, 0xff, 0)], [(6, 18, 0xff, 0)], [(6, 10, 0xff, 0)],
   [(6, 2, 0xff, 0)], [(6, 0, 0x3, 6), (7, 40, 0x3f, 0)], [(7, 32, 0xff, 0)], [(7, 24, 0xff, 0)],
   [(7, 16, 0xff, 0)], [(7, 8, 0xff, 0)], [(7, 0, 0xff, 0)]]

def packBits47 : BlockTable := [
  [(0, 39, 0xff, 0)], [(0, 31, 0xff, 0)], [(0, 23, 0xff, 0)], [(0, 15, 0xff, 0)], [(0, 7, 0xff, 0)],
   [(0, 0, 0x7f, 1), (1, 46, 0x1, 0)], [(1, 38, 0xff, 0)], [(1, 30, 0xff, 0)], [(1, 22, 0xff, 0)],
   [(1, 14, 0xff, 0)], [(1, 6, 0xff, 0)], [(1, 0, 0x3f, 2), (2, 45, 0x3, 0)], [(2, 37, 0xff, 0)],
   [(2, 29, 0xff, 0)], [(2, 21, 0xff, 0)], [(2, 13, 0xff, 0)], [(2, 5, 0xff, 0)], [(2, 0, 0x1f, 3),
   (3, 44, 0x7, 0)], [(3, 36, 0xff, 0)], [(3, 28, 0xff, 0)], [(3, 20, 0xff, 0)], [(3, 12, 0xff, 0)],
   [(3, 4, 0xff, 0)], [(3, 0, 0xf, 4), (4, 43, 0xf, 0)], [(4, 35, 0xff, 0)], [(4, 27, 0xff, 0)],
   [(4, 19, 0xff, 0)], [(4, 11, 0xff, 0)], [(4, 3, 0xff, 0)], [(4, 0, 0x7, 5), (5, 42, 0x1f, 0)],
   [(5, 34, 0xff, 0)], [(5, 26, 0xff, 0)], [(5, 18, 0xff, 0)], [(5, 10, 0xff, 0)],
   [(5, 2, 0xff, 0)], [(5, 0, 0x3, 6), (6, 41, 0x3f, 0)], [(6, 33, 0xff, 0)], [(6, 25, 0xff, 0)],
   [(6, 17, 0xff, 0)], [(6, 9, 0xff, 0)], [(6, 1, 0xff, 0)], [(6, 0, 0x1, 7), (7, 40, 0x7f, 0)],
   [(7, 32, 0xff, 0)], [(7, 24, 0xff, 0)], [(7, 16, 0xff, 0)], [(7, 8, 0xff, 0)], [(7, 0, 0xff, 0)]]

def packBits48 : BlockTable := [
  [(0, 40, 0xff, 0)], [(0, 32, 0xff, 0)], [(0, 24, 0xff, 0)], [(0, 16, 0xff, 0)], [(0, 8, 0xff, 0)],
   [(0, 0, 0xff, 0)], [(1, 40, 0xff, 0)], [(1, 32, 0xff, 0)], [(1, 24, 0xff, 0)],
   [(1, 16, 0xff, 0)], [(1, 8, 0xff, 0)], [(1, 0, 0xff, 0)], [(2, 40, 0xff, 0)], [(2, 32, 0xff, 0)],
   [(2, 24, 0xff, 0)], [(2, 16, 0xff, 0)], [(2, 8, 0xff, 0)], [(2, 0, 0xff, 0)], [(3, 40, 0xff, 0)],
   [(3, 32, 0xff, 0)], [(3, 24, 0xff, 0)], [(3, 16, 0xff, 0)], [(3, 8, 0xff, 0)], [(3, 0, 0xff, 0)],
   [(4, 40, 0xff, 0)], [(4, 32, 0xff, 0)], [(4, 24, 0xff, 0)], [(4, 16, 0xff, 0)],
   [(4, 8, 0xff, 0)], [(4, 0, 0xff, 0)], [(5, 40, 0xff, 0)], [(5, 32, 0xff, 0)], [(5, 24, 0xff, 0)],
   [(5, 16, 0xff, 0)], [(5, 8, 0xff, 0)], [(5, 0, 0xff, 0)], [(6, 40, 0xff, 0)], [(6, 32, 0xff, 0)],
   [(6, 24, 0xff, 0)], [(6, 16, 0xff, 0)], [(6, 8, 0xff, 0)], [(6, 0, 0xff, 0)], [(7, 40, 0xff, 0)],
   [(7, 32, 0xff, 0)], [(7, 24, 0xff, 0)], [(7, 16, 0xff, 0)], [(7, 8, 0xff, 0)], [(7, 0, 0xff, 0)]]

def packBits49 : BlockTable := [
  [(0, 41, 0xff, 0)], [(0, 33, 0xff, 0)], [(0, 25, 0xff, 0)], [(0, 17, 0xff, 0)], [(0, 9, 0xff, 0)],
   [(0, 1, 0xff, 0)], [(0, 0, 0x1, 7), (1, 42, 0x7f, 0)], [(1, 34, 0xff, 0)], [(1, 26, 0xff, 0)],
   [(1, 18, 0xff, 0)], [(1, 10, 0xff, 0)], [(1, 2, 0xff, 0)], [(1, 0, 0x3, 6), (2, 43, 0x3f, 0)],
   [(2, 35, 0xff, 0)], [(2, 27, 0xff, 0)], [(2, 19, 0xff, 0)], [(2, 11, 0xff, 0)],
   [(2, 3, 0xff, 0)], [(2, 0, 0x7, 5), (3, 44, 0x1f, 0)], [(3, 36, 0xff, 0)], [(3, 28, 0xff, 0)],
   [(3, 20, 0xff, 0)], [(3, 12, 0xff, 0)], [(3, 4, 0xff, 0)], [(3, 0, 0xf, 4), (4, 45, 0xf, 0)],
   [(4, 37, 0xff, 0)], [(4, 29, 0xff, 0)], [(4, 21, 0xff, 0)], [(4, 13, 0xff, 0)],
   [(4, 5, 0xff, 0)], [(4, 0, 0x1f, 3), (5, 46, 0x7, 0)], [(5, 38, 0xff, 0)], [(5, 30, 0xff, 0)],
   [(5, 22, 0xff, 0)], [(5, 14, 0xff, 0)], [(5, 6, 0xff, 0)], [(5, 0, 0x3f, 2), (6, 47, 0x3, 0)],
   [(6, 39, 0xff, 0)], [(6, 31, 0xff, 0)], [(6, 23, 0xff, 0)], [(6, 15, 0xff, 0)],
   [(6, 7, 0xff, 0)], [(6, 0, 0x7f, 1), (7, 48, 0x1, 0)], [(7, 40, 0xff, 0)], [(7, 32, 0xff, 0)],
   [(7, 24, 0xff, 0)], [(7, 16, 0xff, 0)], [(7, 8, 0xff, 0)], [(7, 0, 0xff, 0)]]

def packBits50 : BlockTable := [
  [(0, 42, 0xff, 0)], [(0, 34, 0xff, 0)], [(0, 26, 0xff, 0)], [(0, 18, 0xff, 0)],
   [(0, 10, 0xff, 0)], [(0, 2, 0xff, 0)], [(0, 0, 0x3, 6), (1, 44, 0x3f, 0)], [(1, 36, 0xff, 0)],
   [(1, 28, 0xff, 0)], [(1, 20, 0xff, 0)], [(1, 12, 0xff, 0)], [(1, 4, 0xff, 0)], [(1, 0, 0xf, 4),
   (2, 46, 0xf, 0)], [(2, 38, 0xff, 0)], [(2, 30, 0xff, 0)], [(2, 22, 0xff, 0)], [(2, 14, 0xff, 0)],
   [(2, 6, 0xff, 0)], [(2, 0, 0x3f, 2), (3, 48, 0x3, 0)], [(3, 40, 0xff, 0)], [(3, 32, 0xff, 0)],
   [(3, 24, 0xff, 0)], [(3, 16, 0xff, 0)], [(3, 8, 0xff, 0)], [(3, 0, 0xff, 0)], [(4, 42, 0xff, 0)],
   [(4, 34, 0xff, 0)], [(4, 26, 0xff, 0)], [(4, 18, 0xff, 0)], [(4, 10, 0xff, 0)],
   [(4, 2, 0xff, 0)], [(4, 0, 0x3, 6), (5, 44, 0x3f, 0)], [(5, 36, 0xff, 0)], [(5, 28, 0xff, 0)],
   [(5, 20, 0xff, 0)], [(5, 12, 0xff, 0)], [(5, 4, 0xff, 0)], [(5, 0, 0xf, 4), (6, 46, 0xf, 0)],
   [(6, 38, 0xff, 0)], [(6, 30, 0xff, 0)], [(6, 22, 0xff, 0)], [(6, 14, 0xff, 0)],
   [(6, 6, 0xff, 0)], [(6, 0, 0x3f, 2), (7, 48, 0x3, 0)], [(7, 40, 0xff, 0)], [(7, 32, 0xff, 0)],
   [(7, 24, 0xff, 0)], [(7, 16, 0xff, 0)], [(7, 8, 0xff, 0)], [(7, 0, 0xff, 0)]]

def packBits51 : BlockTable := [
  [(0, 43, 0xff, 0)], [(0, 35, 0xff, 0)], [(0, 27, 0xff, 0)], [(0, 19, 0xff, 0)],
   [(0, 11, 0xff, 0)], [(0, 3, 0xff, 0)], [(0, 0, 0x7, 5), (1, 46, 0x1f, 0)], [(1, 38, 0xff, 0)],
   [(1, 30, 0xff, 0)], [(1, 22, 0xff, 0)], [(1, 14, 0xff, 0)], [(1, 6, 0xff, 0)], [(1, 0, 0x3f, 2),
   (2, 49, 0x3, 0)], [(2, 41, 0xff, 0)], [(2, 33, 0xff, 0)], [(2, 25, 0xff, 0)], [(2, 17, 0xff, 0)],
   [(2, 9, 0xff, 0)], [(2, 1, 0xff, 0)], [(2, 0, 0x1, 7), (3, 44, 0x7f, 0)], [(3, 36, 0xff, 0)],
   [(3, 28, 0xff, 0)], [(3, 20, 0xff, 0)], [(3, 12, 0xff, 0)], [(3, 4, 0xff, 0)], [(3, 0, 0xf, 4),
   (4, 47, 0xf, 0)], [(4, 39, 0xff, 0)], [(4, 31, 0xff, 0)], [(4, 23, 0xff, 0)], [(4, 15, 0xff, 0)],
   [(4, 7, 0xff, 0)], [(4, 0, 0x7f, 1), (5, 50, 0x1, 0)], [(5, 42, 0xff, 0)], [(5, 34, 0xff, 0)],
   [(5, 26, 0xff, 0)], [(5, 18, 0xff, 0)], [(5, 10, 0xff, 0)], [(5, 2, 0xff, 0)], [(5, 0, 0x3, 6),
   (6, 45, 0x3f, 0)], [(6, 37, 0xff, 0)], [(6, 29, 0xff, 0)], [(6, 21, 0xff, 0)],
   [(6, 13, 0xff, 0)], [(6, 5, 0xff, 0)], [(6, 0, 0x1f, 3), (7, 48, 0x7, 0)], [(7, 40, 0xff, 0)],
   [(7, 32, 0xff, 0)], [(7, 24, 0xff, 0)], [(7, 16, 0xff, 0)], [(7, 8, 0xff, 0)], [(7, 0, 0xff, 0)]]

def packBits52 : BlockTable := [
  [(0, 44, 0xff, 0)], [(0, 36, 0xff, 0)], [(0, 28, 0xff, 0)], [(0, 20, 0xff, 0)],
   [(0, 12, 0xff, 0)], [(0, 4, 0xff, 0)], [(0, 0, 0xf, 4), (1, 48, 0xf, 0)], [(1, 40, 0xff, 0)],
   [(1, 32, 0xff, 0)], [(1, 24, 0xff, 0)], [(1, 16, 0xff, 0)], [(1, 8, 0xff, 0)], [(1, 0, 0xff, 0)],
   [(2, 44, 0xff, 0)], [(2, 36, 0xff, 0)], [(2, 28, 0xff, 0)], [(2, 20, 0xff, 0)],
   [(2, 12, 0xff, 0)], [(2, 4, 0xff, 0)], [(2, 0, 0xf, 4), (3, 48, 0xf, 0)], [(3, 40, 0xff, 0)],
   [(3, 32, 0xff, 0)], [(3, 24, 0xff, 0)], [(3, 16, 0xff, 0)], [(3, 8, 0xff, 0)], [(3, 0, 0xff, 0)],
   [(4, 44, 0xff, 0)], [(4, 36, 0xff, 0)], [(4, 28, 0xff, 0)], [(4, 20, 0xff, 0)],
   [(4, 12, 0xff, 0)], [(4, 4, 0xff, 0)], [(4, 0, 0xf, 4), (5, 48, 0xf, 0)], [(5, 40, 0xff, 0)],
   [(5, 32, 0xff, 0)], [(5, 24, 0xff, 0)], [(5, 16, 0xff, 0)], [(5, 8, 0xff, 0)], [(5, 0, 0xff, 0)],
   [(6, 44, 0xff, 0)], [(6, 36, 0xff, 0)], [(6, 28, 0xff, 0)], [(6, 20, 0xff, 0)],
   [(6, 12, 0xff, 0)], [(6, 4, 0xff, 0)], [(6, 0, 0xf, 4), (7, 48, 0xf, 0)], [(7, 40, 0xff, 0)],
   [(7, 32, 0xff, 0)], [(7, 24, 0xff, 0)], [(7, 16, 0xff, 0)], [(7, 8, 0xff, 0)], [(7, 0, 0xff, 0)]]

def packBits53 : BlockTable := [
  [(0, 45, 0xff, 0)], [(0, 37, 0xff, 0)], [(0, 29, 0xff, 0)], [(0, 21, 0xff, 0)],
   [(0, 13, 0xff, 0)], [(0, 5, 0xff, 0)], [(0, 0, 0x1f, 3), (1, 50, 0x7, 0)], [(1, 42, 0xff, 0)],
   [(1, 34, 0xff, 0)], [(1, 26, 0xff, 0)], [(1, 18, 0xff, 0)], [(1, 10, 0xff, 0)],
   [(1, 2, 0xff, 0)], [(1, 0, 0x3, 6), (2, 47, 0x3f, 0)], [(2, 39, 0xff, 0)], [(2, 31, 0xff, 0)],
   [(2, 23, 0xff, 0)], [(2, 15, 0xff, 0)], [(2, 7, 0xff, 0)], [(2, 0, 0x7f, 1), (3, 52, 0x1, 0)],
   [(3, 44, 0xff, 0)], [(3, 36, 0xff, 0)], [(3, 28, 0xff, 0)], [(3, 20, 0xff, 0)],
   [(3, 12, 0xff, 0)], [(3, 4, 0xff, 0)], [(3, 0, 0xf, 4), (4, 49, 0xf, 0)], [(4, 41, 0xff, 0)],
   [(4, 33, 0xff, 0)], [(4, 25, 0xff, 0)], [(4, 17, 0xff, 0)], [(4, 9, 0xff, 0)], [(4, 1, 0xff, 0)],
   [(4, 0, 0x1, 7), (5, 46, 0x7f, 0)], [(5, 38, 0xff, 0)], [(5, 30, 0xff, 0)], [(5, 22, 0xff, 0)],
   [(5, 14, 0xff, 0)], [(5, 6, 0xff, 0)], [(5, 0, 0x3f, 2), (6, 51, 0x3, 0)], [(6, 43, 0xff, 0)],
   [(6, 35, 0xff, 0)], [(6, 27, 0xff, 0)], [(6, 19, 0xff, 0)], [(6, 11, 0xff, 0)],
   [(6, 3, 0xff, 0)], [(6, 0, 0x7, 5), (7, 48, 0x1f, 0)], [(7, 40, 0xff, 0)], [(7, 32, 0xff, 0)],
   [(7, 24, 0xff, 0)], [(7, 16, 0xff, 0)], [(7, 8, 0xff, 0)], [(7, 0, 0xff, 0)]]

def packBits54 : BlockTable := [
  [(0, 46, 0xff, 0)], [(0, 38, 0xff, 0)], [(0, 30, 0xff, 0)], [(0, 22, 0xff, 0)],
   [(0, 14, 0xff, 0)], [(0, 6, 0xff, 0)], [(0, 0, 0x3f, 2), (1, 52, 0x3, 0)], [(1, 44, 0xff, 0)],
   [(1, 36, 0xff, 0)], [(1, 28, 0xff, 0)], [(1, 20, 0xff, 0)], [(1, 12, 0xff, 0)],
   [(1, 4, 0xff, 0)], [(1, 0, 0xf, 4), (2, 50, 0xf, 0)], [(2, 42, 0xff, 0)], [(2, 34, 0xff, 0)],
   [(2, 26, 0xff, 0)], [(2, 18, 0xff, 0)], [(2, 10, 0xff, 0)], [(2, 2, 0xff, 0)], [(2, 0, 0x3, 6),
   (3, 48, 0x3f, 0)], [(3, 40, 0xff, 0)], [(3, 32, 0xff, 0)], [(3, 24, 0xff, 0)],
   [(3, 16, 0xff, 0)], [(3, 8, 0xff, 0)], [(3, 0, 0xff, 0)], [(4, 46, 0xff, 0)], [(4, 38, 0xff, 0)],
   [(4, 30, 0xff, 0)], [(4, 22, 0xff, 0)], [(4, 14, 0xff, 0)], [(4, 6, 0xff, 0)], [(4, 0, 0x3f, 2),
   (5, 52, 0x3, 0)], [(5, 44, 0xff, 0)], [(5, 36, 0xff, 0)], [(5, 28, 0xff, 0)], [(5, 20, 0xff, 0)],
   [(5, 12, 0xff, 0)], [(5, 4, 0xff, 0)], [(5, 0, 0xf, 4), (6, 50, 0xf, 0)], [(6, 42, 0xff, 0)],
   [(6, 34, 0xff, 0)], [(6, 26, 0xff, 0)], [(6, 18, 0xff, 0)], [(6, 10, 0xff, 0)],
   [(6, 2, 0xff, 0)], [(6, 0, 0x3, 6), (7, 48, 0x3f, 0)], [(7, 40, 0xff, 0)], [(7, 32, 0xff, 0)],
   [(7, 24, 0xff, 0)], [(7, 16, 0xff, 0)], [(7, 8, 0xff, 0)], [(7, 0, 0xff, 0)]]

def packBits55 : BlockTable := [
  [(0, 47, 0xff, 0)], [(0, 39, 0xff, 0)], [(0, 31, 0xff, 0)], [(0, 23, 0xff, 0)],
   [(0, 15, 0xff, 0)], [(0, 7, 0xff, 0)], [(0, 0, 0x7f, 1), (1, 54, 0x1, 0)], [(1, 46, 0xff, 0)],
   [(1, 38, 0xff, 0)], [(1, 30, 0xff, 0)], [(1, 22, 0xff, 0)], [(1, 14, 0xff, 0)],
   [(1, 6, 0xff, 0)], [(1, 0, 0x3f, 2), (2, 53, 0x3, 0)], [(2, 45, 0xff, 0)], [(2, 37, 0xff, 0)],
   [(2, 29, 0xff, 0)], [(2, 21, 0xff, 0)], [(2, 13, 0xff, 0)], [(2, 5, 0xff, 0)], [(2, 0, 0x1f, 3),
   (3, 52, 0x7, 0)], [(3, 44, 0xff, 0)], [(3, 36, 0xff, 0)], [(3, 28, 0xff, 0)], [(3, 20, 0xff, 0)],
   [(3, 12, 0xff, 0)], [(3, 4, 0xff, 0)], [(3, 0, 0xf, 4), (4, 51, 0xf, 0)], [(4, 43, 0xff, 0)],
   [(4, 35, 0xff, 0)], [(4, 27, 0xff, 0)], [(4, 19, 0xff, 0)], [(4, 11, 0xff, 0)],
   [(4, 3, 0xff, 0)], [(4, 0, 0x7, 5), (5, 50, 0x1f, 0)], [(5, 42, 0xff, 0)], [(5, 34, 0xff, 0)],
   [(5, 26, 0xff, 0)], [(5, 18, 0xff, 0)], [(5, 10, 0xff, 0)], [(5, 2, 0xff, 0)], [(5, 0, 0x3, 6),
   (6, 49, 0x3f, 0)], [(6, 41, 0xff, 0)], [(6, 33, 0xff, 0)], [(6, 25, 0xff, 0)],
   [(6, 17, 0xff, 0)], [(6, 9, 0xff, 0)], [(6, 1, 0xff, 0)], [(6, 0, 0x1, 7), (7, 48, 0x7f, 0)],
   [(7, 40, 0xff, 0)], [(7, 32, 0xff, 0)], [(7, 24, 0xff, 0)], [(7, 16, 0xff, 0)],
   [(7, 8, 0xff, 0)], [(7, 0, 0xff, 0)]]

def packBits56 : BlockTable := [
  [(0, 48, 0xff, 0)], [(0, 40, 0xff, 0)], [(0, 32, 0xff, 0)], [(0, 24, 0xff, 0)],
   [(0, 16, 0xff, 0)], [(0, 8, 0xff, 0)], [(0, 0, 0xff, 0)], [(1, 48, 0xff, 0)], [(1, 40, 0xff, 0)],
   [(1, 32, 0xff, 0)], [(1, 24, 0xff, 0)], [(1, 16, 0xff, 0)], [(1, 8, 0xff, 0)], [(1, 0, 0xff, 0)],
   [(2, 48, 0xff, 0)], [(2, 40, 0xff, 0)], [(2, 32, 0xff, 0)], [(2, 24, 0xff, 0)],
   [(2, 16, 0xff, 0)], [(2, 8, 0xff, 0)], [(2, 0, 0xff, 0)], [(3, 48, 0xff, 0)], [(3, 40, 0xff, 0)],
   [(3, 32, 0xff, 0)], [(3, 24, 0xff, 0)], [(3, 16, 0xff, 0)], [(3, 8, 0xff, 0)], [(3, 0, 0xff, 0)],
   [(4, 48, 0xff, 0)], [(4, 40, 0xff, 0)], [(4, 32, 0xff, 0)], [(4, 24, 0xff, 0)],
   [(4, 16, 0xff, 0)], [(4, 8, 0xff, 0)], [(4, 0, 0xff, 0)], [(5, 48, 0xff, 0)], [(5, 40, 0xff, 0)],
   [(5, 32, 0xff, 0)], [(5, 24, 0xff, 0)], [(5, 16, 0xff, 0)], [(5, 8, 0xff, 0)], [(5, 0, 0xff, 0)],
   [(6, 48, 0xff, 0)], [(6, 40, 0xff, 0)], [(6, 32, 0xff, 0)], [(6, 24, 0xff, 0)],
   [(6, 16, 0xff, 0)], [(6, 8, 0xff, 0)], [(6, 0, 0xff, 0)], [(7, 48, 0xff, 0)], [(7, 40, 0xff, 0)],
   [(7, 32, 0xff, 0)], [(7, 24, 0xff, 0)], [(7, 16, 0xff, 0)], [(7, 8, 0xff, 0)], [(7, 0, 0xff, 0)]]

def packBits57 : BlockTable := [
  [(0, 49, 0xff, 0)], [(0, 41, 0xff, 0)], [(0, 33, 0xff, 0)], [(0, 25, 0xff, 0)],
   [(0, 17, 0xff, 0)], [(0, 9, 0xff, 0)], [(0, 1, 0xff, 0)], [(0, 0, 0x1, 7), (1, 50, 0x7f, 0)],
   [(1, 42, 0xff, 0)], [(1, 34, 0xff, 0)], [(1, 26, 0xff, 0)], [(1, 18, 0xff, 0)],
   [(1, 10, 0xff, 0)], [(1, 2, 0xff, 0)], [(1, 0, 0x3, 6), (2, 51, 0x3f, 0)], [(2, 43, 0xff, 0)],
   [(2, 35, 0xff, 0)], [(2, 27, 0xff, 0)], [(2, 19, 0xff, 0)], [(2, 11, 0xff, 0)],
   [(2, 3, 0xff, 0)], [(2, 0, 0x7, 5), (3, 52, 0x1f, 0)], [(3, 44, 0xff, 0)], [(3, 36, 0xff, 0)],
   [(3, 28, 0xff, 0)], [(3, 20, 0xff, 0)], [(3, 12, 0xff, 0)], [(3, 4, 0xff, 0)], [(3, 0, 0xf, 4),
   (4, 53, 0xf, 0)], [(4, 45, 0xff, 0)], [(4, 37, 0xff, 0)], [(4, 29, 0xff, 0)], [(4, 21, 0xff, 0)],
   [(4, 13, 0xff, 0)], [(4, 5, 0xff, 0)], [(4, 0, 0x1f, 3), (5, 54, 0x7, 0)], [(5, 46, 0xff, 0)],
   [(5, 38, 0xff, 0)], [(5, 30, 0xff, 0)], [(5, 22, 0xff, 0)], [(5, 14, 0xff, 0)],
   [(5, 6, 0xff, 0)], [(5, 0, 0x3f, 2), (6, 55, 0x3, 0)], [(6, 47, 0xff, 0)], [(6, 39, 0xff, 0)],
   [(6, 31, 0xff, 0)], [(6, 23, 0xff, 0)], [(6, 15, 0xff, 0)], [(6, 7, 0xff, 0)], [(6, 0, 0x7f, 1),
   (7, 56, 0x1, 0)], [(7, 48, 0xff, 0)], [(7, 40, 0xff, 0)], [(7, 32, 0xff, 0)], [(7, 24, 0xff, 0)],
   [(7, 16, 0xff, 0)], [(7, 8, 0xff, 0)], [(7, 0, 0xff, 0)]]

def packBits58 : BlockTable := [
  [(0, 50, 0xff, 0)], [(0, 42, 0xff, 0)], [(0, 34, 0xff, 0)], [(0, 26, 0xff, 0)],
   [(0, 18, 0xff, 0)], [(0, 10, 0xff, 0)], [(0, 2, 0xff, 0)], [(0, 0, 0x3, 6), (1, 52, 0x3f, 0)],
   [(1, 44, 0xff, 0)], [(1, 36, 0xff, 0)], [(1, 28, 0xff, 0)], [(1, 20, 0xff, 0)],
   [(1, 12, 0xff, 0)], [(1, 4, 0xff, 0)], [(1, 0, 0xf, 4), (2, 54, 0xf, 0)], [(2, 46, 0xff, 0)],
   [(2, 38, 0xff, 0)], [(2, 30, 0xff, 0)], [(2, 22, 0xff, 0)], [(2, 14, 0xff, 0)],
   [(2, 6, 0xff, 0)], [(2, 0, 0x3f, 2), (3, 56, 0x3, 0)], [(3, 48, 0xff, 0)], [(3, 40, 0xff, 0)],
   [(3, 32, 0xff, 0)], [(3, 24, 0xff, 0)], [(3, 16, 0xff, 0)], [(3, 8, 0xff, 0)], [(3, 0, 0xff, 0)],
   [(4, 50, 0xff, 0)], [(4, 42, 0xff, 0)], [(4, 34, 0xff, 0)], [(4, 26, 0xff, 0)],
   [(4, 18, 0xff, 0)], [(4, 10, 0xff, 0)], [(4, 2, 0xff, 0)], [(4, 0, 0x3, 6), (5, 52, 0x3f, 0)],
   [(5, 44, 0xff, 0)], [(5, 36, 0xff, 0)], [(5, 28, 0xff, 0)], [(5, 20, 0xff, 0)],
   [(5, 12, 0xff, 0)], [(5, 4, 0xff, 0)], [(5, 0, 0xf, 4), (6, 54, 0xf, 0)], [(6, 46, 0xff, 0)],
   [(6, 38, 0xff, 0)], [(6, 30, 0xff, 0)], [(6, 22, 0xff, 0)], [(6, 14, 0xff, 0)],
   [(6, 6, 0xff, 0)], [(6, 0, 0x3f, 2), (7, 56, 0x3, 0)], [(7, 48, 0xff, 0)], [(7, 40, 0xff, 0)],
   [(7, 32, 0xff, 0)], [(7, 24, 0xff, 0)], [(7, 16, 0xff, 0)], [(7, 8, 0xff, 0)], [(7, 0, 0xff, 0)]]

def packBits59 : BlockTable := [
  [(0, 51, 0xff, 0)], [(0, 43, 0xff, 0)], [(0, 35, 0xff, 0)], [(0, 27, 0xff, 0)],
   [(0, 19, 0xff, 0)], [(0, 11, 0xff, 0)], [(0, 3, 0xff, 0)], [(0, 0, 0x7, 5), (1, 54, 0x1f, 0)],
   [(1, 46, 0xff, 0)], [(1, 38, 0xff, 0)], [(1, 30, 0xff, 0)], [(1, 22, 0xff, 0)],
   [(1, 14, 0xff, 0)], [(1, 6, 0xff, 0)], [(1, 0, 0x3f, 2), (2, 57, 0x3, 0)], [(2, 49, 0xff, 0)],
   [(2, 41, 0xff, 0)], [(2, 33, 0xff, 0)], [(2, 25, 0xff, 0)], [(2, 17, 0xff, 0)],
   [(2, 9, 0xff, 0)], [(2, 1, 0xff, 0)], [(2, 0, 0x1, 7), (3, 52, 0x7f, 0)], [(3, 44, 0xff, 0)],
   [(3, 36, 0xff, 0)], [(3, 28, 0xff, 0)], [(3, 20, 0xff, 0)], [(3, 12, 0xff, 0)],
   [(3, 4, 0xff, 0)], [(3, 0, 0xf, 4), (4, 55, 0xf, 0)], [(4, 47, 0xff, 0)], [(4, 39, 0xff, 0)],
   [(4, 31, 0xff, 0)], [(4, 23, 0xff, 0)], [(4, 15, 0xff, 0)], [(4, 7, 0xff, 0)], [(4, 0, 0x7f, 1),
   (5, 58, 0x1, 0)], [(5, 50, 0xff, 0)], [(5, 42, 0xff, 0)], [(5, 34, 0xff, 0)], [(5, 26, 0xff, 0)],
   [(5, 18, 0xff, 0)], [(5, 10, 0xff, 0)], [(5, 2, 0xff, 0)], [(5, 0, 0x3, 6), (6, 53, 0x3f, 0)],
   [(6, 45, 0xff, 0)], [(6, 37, 0xff, 0)], [(6, 29, 0xff, 0)], [(6, 21, 0xff, 0)],
   [(6, 13, 0xff, 0)], [(6, 5, 0xff, 0)], [(6, 0, 0x1f, 3), (7, 56, 0x7, 0)], [(7, 48, 0xff, 0)],
   [(7, 40, 0xff, 0)], [(7, 32, 0xff, 0)], [(7, 24, 0xff, 0)], [(7, 16, 0xff, 0)],
   [(7, 8, 0xff, 0)], [(7, 0, 0xff, 0)]]

def packBits60 : BlockTable := [
  [(0, 52, 0xff, 0)], [(0, 44, 0xff, 0)], [(0, 36, 0xff, 0)], [(0, 28, 0xff, 0)],
   [(0, 20, 0xff, 0)], [(0, 12, 0xff, 0)], [(0, 4, 0xff, 0)], [(0, 0, 0xf, 4), (1, 56, 0xf, 0)],
   [(1, 48, 0xff, 0)], [(1, 40, 0xff, 0)], [(1, 32, 0xff, 0)], [(1, 24, 0xff, 0)],
   [(1, 16, 0xff, 0)], [(1, 8, 0xff, 0)], [(1, 0, 0xff, 0)], [(2, 52, 0xff, 0)], [(2, 44, 0xff, 0)],
   [(2, 36, 0xff, 0)], [(2, 28, 0xff, 0)], [(2, 20, 0xff, 0)], [(2, 12, 0xff, 0)],
   [(2, 4, 0xff, 0)], [(2, 0, 0xf, 4), (3, 56, 0xf, 0)], [(3, 48, 0xff, 0)], [(3, 40, 0xff, 0)],
   [(3, 32, 0xff, 0)], [(3, 24, 0xff, 0)], [(3, 16, 0xff, 0)], [(3, 8, 0xff, 0)], [(3, 0, 0xff, 0)],
   [(4, 52, 0xff, 0)], [(4, 44, 0xff, 0)], [(4, 36, 0xff, 0)], [(4, 28, 0xff, 0)],
   [(4, 20, 0xff, 0)], [(4, 12, 0xff, 0)], [(4, 4, 0xff, 0)], [(4, 0, 0xf, 4), (5, 56, 0xf, 0)],
   [(5, 48, 0xff, 0)], [(5, 40, 0xff, 0)], [(5, 32, 0xff, 0)], [(5, 24, 0xff, 0)],
   [(5, 16, 0xff, 0)], [(5, 8, 0xff, 0)], [(5, 0, 0xff, 0)], [(6, 52, 0xff, 0)], [(6, 44, 0xff, 0)],
   [(6, 36, 0xff, 0)], [(6, 28, 0xff, 0)], [(6, 20, 0xff, 0)], [(6, 12, 0xff, 0)],
   [(6, 4, 0xff, 0)], [(6, 0, 0xf, 4), (7, 56, 0xf, 0)], [(7, 48, 0xff, 0)], [(7, 40, 0xff, 0)],
   [(7, 32, 0xff, 0)], [(7, 24, 0xff, 0)], [(7, 16, 0xff, 0)], [(7, 8, 0xff, 0)], [(7, 0, 0xff, 0)]]

def packBits61 : BlockTable := [
  [(0, 53, 0xff, 0)], [(0, 45, 0xff, 0)], [(0, 37, 0xff, 0)], [(0, 29, 0xff, 0)],
   [(0, 21, 0xff, 0)], [(0, 13, 0xff, 0)], [(0, 5, 0xff, 0)], [(0, 0, 0x1f, 3), (1, 58, 0x7, 0)],
   [(1, 50, 0xff, 0)], [(1, 42, 0xff, 0)], [(1, 34, 0xff, 0)], [(1, 26, 0xff, 0)],
   [(1, 18, 0xff, 0)], [(1, 10, 0xff, 0)], [(1, 2, 0xff, 0)], [(1, 0, 0x3, 6), (2, 55, 0x3f, 0)],
   [(2, 47, 0xff, 0)], [(2, 39, 0xff, 0)], [(2, 31, 0xff, 0)], [(2, 23, 0xff, 0)],
   [(2, 15, 0xff, 0)], [(2, 7, 0xff, 0)], [(2, 0, 0x7f, 1), (3, 60, 0x1, 0)], [(3, 52, 0xff, 0)],
   [(3, 44, 0xff, 0)], [(3, 36, 0xff, 0)], [(3, 28, 0xff, 0)], [(3, 20, 0xff, 0)],
   [(3, 12, 0xff, 0)], [(3, 4, 0xff, 0)], [(3, 0, 0xf, 4), (4, 57, 0xf, 0)], [(4, 49, 0xff, 0)],
   [(4, 41, 0xff, 0)], [(4, 33, 0xff, 0)], [(4, 25, 0xff, 0)], [(4, 17, 0xff, 0)],
   [(4, 9, 0xff, 0)], [(4, 1, 0xff, 0)], [(4, 0, 0x1, 7), (5, 54, 0x7f, 0)], [(5, 46, 0xff, 0)],
   [(5, 38, 0xff, 0)], [(5, 30, 0xff, 0)], [(5, 22, 0xff, 0)], [(5, 14, 0xff, 0)],
   [(5, 6, 0xff, 0)], [(5, 0, 0x3f, 2), (6, 59, 0x3, 0)], [(6, 51, 0xff, 0)], [(6, 43, 0xff, 0)],
   [(6, 35, 0xff, 0)], [(6, 27, 0xff, 0)], [(6, 19, 0xff, 0)], [(6, 11, 0xff, 0)],
   [(6, 3, 0xff, 0)], [(6, 0, 0x7, 5), (7, 56, 0x1f, 0)], [(7, 48, 0xff, 0)], [(7, 40, 0xff, 0)],
   [(7, 32, 0xff, 0)], [(7, 24, 0xff, 0)], [(7, 16, 0xff, 0)], [(7, 8, 0xff, 0)], [(7, 0, 0xff, 0)]]

def packBits62 : BlockTable := [
  [(0, 54, 0xff, 0)], [(0, 46, 0xff, 0)], [(0, 38, 0xff, 0)], [(0, 30, 0xff, 0)],
   [(0, 22, 0xff, 0)], [(0, 14, 0xff, 0)], [(0, 6, 0xff, 0)], [(0, 0, 0x3f, 2), (1, 60, 0x3, 0)],
   [(1, 52, 0xff, 0)], [(1, 44, 0xff, 0)], [(1, 36, 0xff, 0)], [(1, 28, 0xff, 0)],
   [(1, 20, 0xff, 0)], [(1, 12, 0xff, 0)], [(1, 4, 0xff, 0)], [(1, 0, 0xf, 4), (2, 58, 0xf, 0)],
   [(2, 50, 0xff, 0)], [(2, 42, 0xff, 0)], [(2, 34, 0xff, 0)], [(2, 26, 0xff, 0)],
   [(2, 18, 0xff, 0)], [(2, 10, 0xff, 0)], [(2, 2, 0xff, 0)], [(2, 0, 0x3, 6), (3, 56, 0x3f, 0)],
   [(3, 48, 0xff, 0)], [(3, 40, 0xff, 0)], [(3, 32, 0xff, 0)], [(3, 24, 0xff, 0)],
   [(3, 16, 0xff, 0)], [(3, 8, 0xff, 0)], [(3, 0, 0xff, 0)], [(4, 54, 0xff, 0)], [(4, 46, 0xff, 0)],
   [(4, 38, 0xff, 0)], [(4, 30, 0xff, 0)], [(4, 22, 0xff, 0)], [(4, 14, 0xff, 0)],
   [(4, 6, 0xff, 0)], [(4, 0, 0x3f, 2), (5, 60, 0x3, 0)], [(5, 52, 0xff, 0)], [(5, 44, 0xff, 0)],
   [(5, 36, 0xff, 0)], [(5, 28, 0xff, 0)], [(5, 20, 0xff, 0)], [(5, 12, 0xff, 0)],
   [(5, 4, 0xff, 0)], [(5, 0, 0xf, 4), (6, 58, 0xf, 0)], [(6, 50, 0xff, 0)], [(6, 42, 0xff, 0)],
   [(6, 34, 0xff, 0)], [(6, 26, 0xff, 0)], [(6, 18, 0xff, 0)], [(6, 10, 0xff, 0)],
   [(6, 2, 0xff, 0)], [(6, 0, 0x3, 6), (7, 56, 0x3f, 0)], [(7, 48, 0xff, 0)], [(7, 40, 0xff, 0)],
   [(7, 32, 0xff, 0)], [(7, 24, 0xff, 0)], [(7, 16, 0xff, 0)], [(7, 8, 0xff, 0)], [(7, 0, 0xff, 0)]]

def packBits63 : BlockTable := [
  [(0, 55, 0xff, 0)], [(0, 47, 0xff, 0)], [(0, 39, 0xff, 0)], [(0, 31, 0xff, 0)],
   [(0, 23, 0xff, 0)], [(0, 15, 0xff, 0)], [(0, 7, 0xff, 0)], [(0, 0, 0x7f, 1), (1, 62, 0x1, 0)],
   [(1, 54, 0xff, 0)], [(1, 46, 0xff, 0)], [(1, 38, 0xff, 0)], [(1, 30, 0xff, 0)],
   [(1, 22, 0xff, 0)], [(1, 14, 0xff, 0)], [(1, 6, 0xff, 0)], [(1, 0, 0x3f, 2), (2, 61, 0x3, 0)],
   [(2, 53, 0xff, 0)], [(2, 45, 0xff, 0)], [(2, 37, 0xff, 0)], [(2, 29, 0xff, 0)],
   [(2, 21, 0xff, 0)], [(2, 13, 0xff, 0)], [(2, 5, 0xff, 0)], [(2, 0, 0x1f, 3), (3, 60, 0x7, 0)],
   [(3, 52, 0xff, 0)], [(3, 44, 0xff, 0)], [(3, 36, 0xff, 0)], [(3, 28, 0xff, 0)],
   [(3, 20, 0xff, 0)], [(3, 12, 0xff, 0)], [(3, 4, 0xff, 0)], [(3, 0, 0xf, 4), (4, 59, 0xf, 0)],
   [(4, 51, 0xff, 0)], [(4, 43, 0xff, 0)], [(4, 35, 0xff, 0)], [(4, 27, 0xff, 0)],
   [(4, 19, 0xff, 0)], [(4, 11, 0xff, 0)], [(4, 3, 0xff, 0)], [(4, 0, 0x7, 5), (5, 58, 0x1f, 0)],
   [(5, 50, 0xff, 0)], [(5, 42, 0xff, 0)], [(5, 34, 0xff, 0)], [(5, 26, 0xff, 0)],
   [(5, 18, 0xff, 0)], [(5, 10, 0xff, 0)], [(5, 2, 0xff, 0)], [(5, 0, 0x3, 6), (6, 57, 0x3f, 0)],
   [(6, 49, 0xff, 0)], [(6, 41, 0xff, 0)], [(6, 33, 0xff, 0)], [(6, 25, 0xff, 0)],
   [(6, 17, 0xff, 0)], [(6, 9, 0xff, 0)], [(6, 1, 0xff, 0)], [(6, 0, 0x1, 7), (7, 56, 0x7f, 0)],
   [(7, 48, 0xff, 0)], [(7, 40, 0xff, 0)], [(7, 32, 0xff, 0)], [(7, 24, 0xff, 0)],
   [(7, 16, 0xff, 0)], [(7, 8, 0xff, 0)], [(7, 0, 0xff, 0)]]

/-- The functions `pack_bits_block` chooses from, by their width. -/
def packTables : List BlockTable := [
  packBits1, packBits2, packBits3, packBits4, packBits5, packBits6, packBits7, packBits8,
  packBits9, packBits10, packBits11, packBits12, packBits13, packBits14, packBits15, packBits16,
  packBits17, packBits18, packBits19, packBits20, packBits21, packBits22, packBits23, packBits24,
  packBits25, packBits26, packBits27, packBits28, packBits29, packBits30, packBits31, packBits32,
  packBits33, packBits34, packBits35, packBits36, packBits37, packBits38, packBits39, packBits40,
  packBits41, packBits42, packBits43, packBits44, packBits45, packBits46, packBits47, packBits48,
  packBits49, packBits50, packBits51, packBits52, packBits53, packBits54, packBits55, packBits56,
  packBits57, packBits58, packBits59, packBits60, packBits61, packBits62, packBits63]

/-! ## `unpack_bits_1` to `unpack_bits_63` -/

def unpackBits1 : BlockTable := [
  [(0, 7, 0x1, 0)], [(0, 6, 0x1, 0)], [(0, 5, 0x1, 0)], [(0, 4, 0x1, 0)], [(0, 3, 0x1, 0)],
   [(0, 2, 0x1, 0)], [(0, 1, 0x1, 0)], [(0, 0, 0x1, 0)]]

def unpackBits2 : BlockTable := [
  [(0, 6, 0x3, 0)], [(0, 4, 0x3, 0)], [(0, 2, 0x3, 0)], [(0, 0, 0x3, 0)], [(1, 6, 0x3, 0)],
   [(1, 4, 0x3, 0)], [(1, 2, 0x3, 0)], [(1, 0, 0x3, 0)]]

def unpackBits3 : BlockTable := [
  [(0, 5, 0x7, 0)], [(0, 2, 0x7, 0)], [(0, 0, 0x3, 1), (1, 7, 0x1, 0)], [(1, 4, 0x7, 0)],
   [(1, 1, 0x7, 0)], [(1, 0, 0x1, 2), (2, 6, 0x3, 0)], [(2, 3, 0x7, 0)], [(2, 0, 0x7, 0)]]

def unpackBits4 : BlockTable := [
  [(0, 4, 0xf, 0)], [(0, 0, 0xf, 0)], [(1, 4, 0xf, 0)], [(1, 0, 0xf, 0)], [(2, 4, 0xf, 0)],
   [(2, 0, 0xf, 0)], [(3, 4, 0xf, 0)], [(3, 0, 0xf, 0)]]

def unpackBits5 : BlockTable := [
  [(0, 3, 0x1f, 0)], [(0, 0, 0x7, 2), (1, 6, 0x3, 0)], [(1, 1, 0x1f, 0)], [(1, 0, 0x1, 4),
   (2, 4, 0xf, 0)], [(2, 0, 0xf, 1), (3, 7, 0x1, 0)], [(3, 2, 0x1f, 0)], [(3, 0, 0x3, 3),
   (4, 5, 0x7, 0)], [(4, 0, 0x1f, 0)]]

def unpackBits6 : BlockTable := [
  [(0, 2, 0x3f, 0)], [(0, 0, 0x3, 4), (1, 4, 0xf, 0)], [(1, 0, 0xf, 2), (2, 6, 0x3, 0)],
   [(2, 0, 0x3f, 0)], [(3, 2, 0x3f, 0)], [(3, 0, 0x3, 4), (4, 4, 0xf, 0)], [(4, 0, 0xf, 2),
   (5, 6, 0x3, 0)], [(5, 0, 0x3f, 0)]]

def unpackBits7 : BlockTable := [
  [(0, 1, 0x7f, 0)], [(0, 0, 0x1, 6), (1, 2, 0x3f, 0)], [(1, 0, 0x3, 5), (2, 3, 0x1f, 0)],
   [(2, 0, 0x7, 4), (3, 4, 0xf, 0)], [(3, 0, 0xf, 3), (4, 5, 0x7, 0)], [(4, 0, 0x1f, 2),
   (5, 6, 0x3, 0)], [(5, 0, 0x3f, 1), (6, 7, 0x1, 0)], [(6, 0, 0x7f, 0)]]

def unpackBits8 : BlockTable := [
  [(0, 0, 0xff, 0)], [(1, 0, 0xff, 0)], [(2, 0, 0xff, 0)], [(3, 0, 0xff, 0)], [(4, 0, 0xff, 0)],
   [(5, 0, 0xff, 0)], [(6, 0, 0xff, 0)], [(7, 0, 0xff, 0)]]

def unpackBits9 : BlockTable := [
  [(0, 0, 0xff, 1), (1, 7, 0x1, 0)], [(1, 0, 0x7f, 2), (2, 6, 0x3, 0)], [(2, 0, 0x3f, 3),
   (3, 5, 0x7, 0)], [(3, 0, 0x1f, 4), (4, 4, 0xf, 0)], [(4, 0, 0xf, 5), (5, 3, 0x1f, 0)],
   [(5, 0, 0x7, 6), (6, 2, 0x3f, 0)], [(6, 0, 0x3, 7), (7, 1, 0x7f, 0)], [(7, 0, 0x1, 8),
   (8, 0, 0xff, 0)]]

def unpackBits10 : BlockTable := [
  [(0, 0, 0xff, 2), (1, 6, 0x3, 0)], [(1, 0, 0x3f, 4), (2, 4, 0xf, 0)], [(2, 0, 0xf, 6),
   (3, 2, 0x3f, 0)], [(3, 0, 0x3, 8), (4, 0, 0xff, 0)], [(5, 0, 0xff, 2), (6, 6, 0x3, 0)],
   [(6, 0, 0x3f, 4), (7, 4, 0xf, 0)], [(7, 0, 0xf, 6), (8, 2, 0x3f, 0)], [(8, 0, 0x3, 8),
   (9, 0, 0xff, 0)]]

def unpackBits11 : BlockTable := [
  [(0, 0, 0xff, 3), (1, 5, 0x7, 0)], [(1, 0, 0x1f, 6), (2, 2, 0x3f, 0)], [(2, 0, 0x3, 9),
   (3, 0, 0xff, 1), (4, 7, 0x1, 0)], [(4, 0, 0x7f, 4), (5, 4, 0xf, 0)], [(5, 0, 0xf, 7),
   (6, 1, 0x7f, 0)], [(6, 0, 0x1, 10), (7, 0, 0xff, 2), (8, 6, 0x3, 0)], [(8, 0, 0x3f, 5),
   (9, 3, 0x1f, 0)], [(9, 0, 0x7, 8), (10, 0, 0xff, 0)]]

def unpackBits12 : BlockTable := [
  [(0, 0, 0xff, 4), (1, 4, 0xf, 0)], [(1, 0, 0xf, 8), (2, 0, 0xff, 0)], [(3, 0, 0xff, 4),
   (4, 4, 0xf, 0)], [(4, 0, 0xf, 8), (5, 0, 0xff, 0)], [(6, 0, 0xff, 4), (7, 4, 0xf, 0)],
   [(7, 0, 0xf, 8), (8, 0, 0xff, 0)], [(9, 0, 0xff, 4), (10, 4, 0xf, 0)], [(10, 0, 0xf, 8),
   (11, 0, 0xff, 0)]]

def unpackBits13 : BlockTable := [
  [(0, 0, 0xff, 5), (1, 3, 0x1f, 0)], [(1, 0, 0x7, 10), (2, 0, 0xff, 2), (3, 6, 0x3, 0)],
   [(3, 0, 0x3f, 7), (4, 1, 0x7f, 0)], [(4, 0, 0x1, 12), (5, 0, 0xff, 4), (6, 4, 0xf, 0)],
   [(6, 0, 0xf, 9), (7, 0, 0xff, 1), (8, 7, 0x1, 0)], [(8, 0, 0x7f, 6), (9, 2, 0x3f, 0)],
   [(9, 0, 0x3, 11), (10, 0, 0xff, 3), (11, 5, 0x7, 0)], [(11, 0, 0x1f, 8), (12, 0, 0xff, 0)]]

def unpackBits14 : BlockTable := [
  [(0, 0, 0xff, 6), (1, 2, 0x3f, 0)], [(1, 0, 0x3, 12), (2, 0, 0xff, 4), (3, 4, 0xf, 0)],
   [(3, 0, 0xf, 10), (4, 0, 0xff, 2), (5, 6, 0x3, 0)], [(5, 0, 0x3f, 8), (6, 0, 0xff, 0)],
   [(7, 0, 0xff, 6), (8, 2, 0x3f, 0)], [(8, 0, 0x3, 12), (9, 0, 0xff, 4), (10, 4, 0xf, 0)],
   [(10, 0, 0xf, 10), (11, 0, 0xff, 2), (12, 6, 0x3, 0)], [(12, 0, 0x3f, 8), (13, 0, 0xff, 0)]]

def unpackBits15 : BlockTable := [
  [(0, 0, 0xff, 7), (1, 1, 0x7f, 0)], [(1, 0, 0x1, 14), (2, 0, 0xff, 6), (3, 2, 0x3f, 0)],
   [(3, 0, 0x3, 13), (4, 0, 0xff, 5), (5, 3, 0x1f, 0)], [(5, 0, 0x7, 12), (6, 0, 0xff, 4),
   (7, 4, 0xf, 0)], [(7, 0, 0xf, 11), (8, 0, 0xff, 3), (9, 5, 0x7, 0)], [(9, 0, 0x1f, 10),
   (10, 0, 0xff, 2), (11, 6, 0x3, 0)], [(11, 0, 0x3f, 9), (12, 0, 0xff, 1), (13, 7, 0x1, 0)],
   [(13, 0, 0x7f, 8), (14, 0, 0xff, 0)]]

def unpackBits16 : BlockTable := [
  [(0, 0, 0xff, 8), (1, 0, 0xff, 0)], [(2, 0, 0xff, 8), (3, 0, 0xff, 0)], [(4, 0, 0xff, 8),
   (5, 0, 0xff, 0)], [(6, 0, 0xff, 8), (7, 0, 0xff, 0)], [(8, 0, 0xff, 8), (9, 0, 0xff, 0)],
   [(10, 0, 0xff, 8), (11, 0, 0xff, 0)], [(12, 0, 0xff, 8), (13, 0, 0xff, 0)], [(14, 0, 0xff, 8),
   (15, 0, 0xff, 0)]]

def unpackBits17 : BlockTable := [
  [(0, 0, 0xff, 9), (1, 0, 0xff, 1), (2, 7, 0x1, 0)], [(2, 0, 0x7f, 10), (3, 0, 0xff, 2),
   (4, 6, 0x3, 0)], [(4, 0, 0x3f, 11), (5, 0, 0xff, 3), (6, 5, 0x7, 0)], [(6, 0, 0x1f, 12),
   (7, 0, 0xff, 4), (8, 4, 0xf, 0)], [(8, 0, 0xf, 13), (9, 0, 0xff, 5), (10, 3, 0x1f, 0)],
   [(10, 0, 0x7, 14), (11, 0, 0xff, 6), (12, 2, 0x3f, 0)], [(12, 0, 0x3, 15), (13, 0, 0xff, 7),
   (14, 1, 0x7f, 0)], [(14, 0, 0x1, 16), (15, 0, 0xff, 8), (16, 0, 0xff, 0)]]

def unpackBits18 : BlockTable := [
  [(0, 0, 0xff, 10), (1, 0, 0xff, 2), (2, 6, 0x3, 0)], [(2, 0, 0x3f, 12), (3, 0, 0xff, 4),
   (4, 4, 0xf, 0)], [(4, 0, 0xf, 14), (5, 0, 0xff, 6), (6, 2, 0x3f, 0)], [(6, 0, 0x3, 16),
   (7, 0, 0xff, 8), (8, 0, 0xff, 0)], [(9, 0, 0xff, 10), (10, 0, 0xff, 2), (11, 6, 0x3, 0)],
   [(11, 0, 0x3f, 12), (12, 0, 0xff, 4), (13, 4, 0xf, 0)], [(13, 0, 0xf, 14), (14, 0, 0xff, 6),
   (15, 2, 0x3f, 0)], [(15, 0, 0x3, 16), (16, 0, 0xff, 8), (17, 0, 0xff, 0)]]

def unpackBits19 : BlockTable := [
  [(0, 0, 0xff, 11), (1, 0, 0xff, 3), (2, 5, 0x7, 0)], [(2, 0, 0x1f, 14), (3, 0, 0xff, 6),
   (4, 2, 0x3f, 0)], [(4, 0, 0x3, 17), (5, 0, 0xff, 9), (6, 0, 0xff, 1), (7, 7, 0x1, 0)],
   [(7, 0, 0x7f, 12), (8, 0, 0xff, 4), (9, 4, 0xf, 0)], [(9, 0, 0xf, 15), (10, 0, 0xff, 7),
   (11, 1, 0x7f, 0)], [(11, 0, 0x1, 18), (12, 0, 0xff, 10), (13, 0, 0xff, 2), (14, 6, 0x3, 0)],
   [(14, 0, 0x3f, 13), (15, 0, 0xff, 5), (16, 3, 0x1f, 0)], [(16, 0, 0x7, 16), (17, 0, 0xff, 8),
   (18, 0, 0xff, 0)]]

def unpackBits20 : BlockTable := [
  [(0, 0, 0xff, 12), (1, 0, 0xff, 4), (2, 4, 0xf, 0)], [(2, 0, 0xf, 16), (3, 0, 0xff, 8),
   (4, 0, 0xff, 0)], [(5, 0, 0xff, 12), (6, 0, 0xff, 4), (7, 4, 0xf, 0)], [(7, 0, 0xf, 16),
   (8, 0, 0xff, 8), (9, 0, 0xff, 0)], [(10, 0, 0xff, 12), (11, 0, 0xff, 4), (12, 4, 0xf, 0)],
   [(12, 0, 0xf, 16), (13, 0, 0xff, 8), (14, 0, 0xff, 0)], [(15, 0, 0xff, 12), (16, 0, 0xff, 4),
   (17, 4, 0xf, 0)], [(17, 0, 0xf, 16), (18, 0, 0xff, 8), (19, 0, 0xff, 0)]]

def unpackBits21 : BlockTable := [
  [(0, 0, 0xff, 13), (1, 0, 0xff, 5), (2, 3, 0x1f, 0)], [(2, 0, 0x7, 18), (3, 0, 0xff, 10),
   (4, 0, 0xff, 2), (5, 6, 0x3, 0)], [(5, 0, 0x3f, 15), (6, 0, 0xff, 7), (7, 1, 0x7f, 0)],
   [(7, 0, 0x1, 20), (8, 0, 0xff, 12), (9, 0, 0xff, 4), (10, 4, 0xf, 0)], [(10, 0, 0xf, 17),
   (11, 0, 0xff, 9), (12, 0, 0xff, 1), (13, 7, 0x1, 0)], [(13, 0, 0x7f, 14), (14, 0, 0xff, 6),
   (15, 2, 0x3f, 0)], [(15, 0, 0x3, 19), (16, 0, 0xff, 11), (17, 0, 0xff, 3), (18, 5, 0x7, 0)],
   [(18, 0, 0x1f, 16), (19, 0, 0xff, 8), (20, 0, 0xff, 0)]]

def unpackBits22 : BlockTable := [
  [(0, 0, 0xff, 14), (1, 0, 0xff, 6), (2, 2, 0x3f, 0)], [(2, 0, 0x3, 20), (3, 0, 0xff, 12),
   (4, 0, 0xff, 4), (5, 4, 0xf, 0)], [(5, 0, 0xf, 18), (6, 0, 0xff, 10), (7, 0, 0xff, 2),
   (8, 6, 0x3, 0)], [(8, 0, 0x3f, 16), (9, 0, 0xff, 8), (10, 0, 0xff, 0)], [(11, 0, 0xff, 14),
   (12, 0, 0xff, 6), (13, 2, 0x3f, 0)], [(13, 0, 0x3, 20), (14, 0, 0xff, 12), (15, 0, 0xff, 4),
   (16, 4, 0xf, 0)], [(16, 0, 0xf, 18), (17, 0, 0xff, 10), (18, 0, 0xff, 2), (19, 6, 0x3, 0)],
   [(19, 0, 0x3f, 16), (20, 0, 0xff, 8), (21, 0, 0xff, 0)]]

def unpackBits23 : BlockTable := [
  [(0, 0, 0xff, 15), (1, 0, 0xff, 7), (2, 1, 0x7f, 0)], [(2, 0, 0x1, 22), (3, 0, 0xff, 14),
   (4, 0, 0xff, 6), (5, 2, 0x3f, 0)], [(5, 0, 0x3, 21), (6, 0, 0xff, 13), (7, 0, 0xff, 5),
   (8, 3, 0x1f, 0)], [(8, 0, 0x7, 20), (9, 0, 0xff, 12), (10, 0, 0xff, 4), (11, 4, 0xf, 0)],
   [(11, 0, 0xf, 19), (12, 0, 0xff, 11), (13, 0, 0xff, 3), (14, 5, 0x7, 0)], [(14, 0, 0x1f, 18),
   (15, 0, 0xff, 10), (16, 0, 0xff, 2), (17, 6, 0x3, 0)], [(17, 0, 0x3f, 17), (18, 0, 0xff, 9),
   (19, 0, 0xff, 1), (20, 7, 0x1, 0)], [(20, 0, 0x7f, 16), (21, 0, 0xff, 8), (22, 0, 0xff, 0)]]

def unpackBits24 : BlockTable := [
  [(0, 0, 0xff, 16), (1, 0, 0xff, 8), (2, 0, 0xff, 0)], [(3, 0, 0xff, 16), (4, 0, 0xff, 8),
   (5, 0, 0xff, 0)], [(6, 0, 0xff, 16), (7, 0, 0xff, 8), (8, 0, 0xff, 0)], [(9, 0, 0xff, 16),
   (10, 0, 0xff, 8), (11, 0, 0xff, 0)], [(12, 0, 0xff, 16), (13, 0, 0xff, 8), (14, 0, 0xff, 0)],
   [(15, 0, 0xff, 16), (16, 0, 0xff, 8), (17, 0, 0xff, 0)], [(18, 0, 0xff, 16), (19, 0, 0xff, 8),
   (20, 0, 0xff, 0)], [(21, 0, 0xff, 16), (22, 0, 0xff, 8), (23, 0, 0xff, 0)]]

def unpackBits25 : BlockTable := [
  [(0, 0, 0xff, 17), (1, 0, 0xff, 9), (2, 0, 0xff, 1), (3, 7, 0x1, 0)], [(3, 0, 0x7f, 18),
   (4, 0, 0xff, 10), (5, 0, 0xff, 2), (6, 6, 0x3, 0)], [(6, 0, 0x3f, 19), (7, 0, 0xff, 11),
   (8, 0, 0xff, 3), (9, 5, 0x7, 0)], [(9, 0, 0x1f, 20), (10, 0, 0xff, 12), (11, 0, 0xff, 4),
   (12, 4, 0xf, 0)], [(12, 0, 0xf, 21), (13, 0, 0xff, 13), (14, 0, 0xff, 5), (15, 3, 0x1f, 0)],
   [(15, 0, 0x7, 22), (16, 0, 0xff, 14), (17, 0, 0xff, 6), (18, 2, 0x3f, 0)], [(18, 0, 0x3, 23),
   (19, 0, 0xff, 15), (20, 0, 0xff, 7), (21, 1, 0x7f, 0)], [(21, 0, 0x1, 24), (22, 0, 0xff, 16),
   (23, 0, 0xff, 8), (24, 0, 0xff, 0)]]

def unpackBits26 : BlockTable := [
  [(0, 0, 0xff, 18), (1, 0, 0xff, 10), (2, 0, 0xff, 2), (3, 6, 0x3, 0)], [(3, 0, 0x3f, 20),
   (4, 0, 0xff, 12), (5, 0, 0xff, 4), (6, 4, 0xf, 0)], [(6, 0, 0xf, 22), (7, 0, 0xff, 14),
   (8, 0, 0xff, 6), (9, 2, 0x3f, 0)], [(9, 0, 0x3, 24), (10, 0, 0xff, 16), (11, 0, 0xff, 8),
   (12, 0, 0xff, 0)], [(13, 0, 0xff, 18), (14, 0, 0xff, 10), (15, 0, 0xff, 2), (16, 6, 0x3, 0)],
   [(16, 0, 0x3f, 20), (17, 0, 0xff, 12), (18, 0, 0xff, 4), (19, 4, 0xf, 0)], [(19, 0, 0xf, 22),
   (20, 0, 0xff, 14), (21, 0, 0xff, 6), (22, 2, 0x3f, 0)], [(22, 0, 0x3, 24), (23, 0, 0xff, 16),
   (24, 0, 0xff, 8), (25, 0, 0xff, 0)]]

def unpackBits27 : BlockTable := [
  [(0, 0, 0xff, 19), (1, 0, 0xff, 11), (2, 0, 0xff, 3), (3, 5, 0x7, 0)], [(3, 0, 0x1f, 22),
   (4, 0, 0xff, 14), (5, 0, 0xff, 6), (6, 2, 0x3f, 0)], [(6, 0, 0x3, 25), (7, 0, 0xff, 17),
   (8, 0, 0xff, 9), (9, 0, 0xff, 1), (10, 7, 0x1, 0)], [(10, 0, 0x7f, 20), (11, 0, 0xff, 12),
   (12, 0, 0xff, 4), (13, 4, 0xf, 0)], [(13, 0, 0xf, 23), (14, 0, 0xff, 15), (15, 0, 0xff, 7),
   (16, 1, 0x7f, 0)], [(16, 0, 0x1, 26), (17, 0, 0xff, 18), (18, 0, 0xff, 10), (19, 0, 0xff, 2),
   (20, 6, 0x3, 0)], [(20, 0, 0x3f, 21), (21, 0, 0xff, 13), (22, 0, 0xff, 5), (23, 3, 0x1f, 0)],
   [(23, 0, 0x7, 24), (24, 0, 0xff, 16), (25, 0, 0xff, 8), (26, 0, 0xff, 0)]]

def unpackBits28 : BlockTable := [
  [(0, 0, 0xff, 20), (1, 0, 0xff, 12), (2, 0, 0xff, 4), (3, 4, 0xf, 0)], [(3, 0, 0xf, 24),
   (4, 0, 0xff, 16), (5, 0, 0xff, 8), (6, 0, 0xff, 0)], [(7, 0, 0xff, 20), (8, 0, 0xff, 12),
   (9, 0, 0xff, 4), (10, 4, 0xf, 0)], [(10, 0, 0xf, 24), (11, 0, 0xff, 16), (12, 0, 0xff, 8),
   (13, 0, 0xff, 0)], [(14, 0, 0xff, 20), (15, 0, 0xff, 12), (16, 0, 0xff, 4), (17, 4, 0xf, 0)],
   [(17, 0, 0xf, 24), (18, 0, 0xff, 16), (19, 0, 0xff, 8), (20, 0, 0xff, 0)], [(21, 0, 0xff, 20),
   (22, 0, 0xff, 12), (23, 0, 0xff, 4), (24, 4, 0xf, 0)], [(24, 0, 0xf, 24), (25, 0, 0xff, 16),
   (26, 0, 0xff, 8), (27, 0, 0xff, 0)]]

def unpackBits29 : BlockTable := [
  [(0, 0, 0xff, 21), (1, 0, 0xff, 13), (2, 0, 0xff, 5), (3, 3, 0x1f, 0)], [(3, 0, 0x7, 26),
   (4, 0, 0xff, 18), (5, 0, 0xff, 10), (6, 0, 0xff, 2), (7, 6, 0x3, 0)], [(7, 0, 0x3f, 23),
   (8, 0, 0xff, 15), (9, 0, 0xff, 7), (10, 1, 0x7f, 0)], [(10, 0, 0x1, 28), (11, 0, 0xff, 20),
   (12, 0, 0xff, 12), (13, 0, 0xff, 4), (14, 4, 0xf, 0)], [(14, 0, 0xf, 25), (15, 0, 0xff, 17),
   (16, 0, 0xff, 9), (17, 0, 0xff, 1), (18, 7, 0x1, 0)], [(18, 0, 0x7f, 22), (19, 0, 0xff, 14),
   (20, 0, 0xff, 6), (21, 2, 0x3f, 0)], [(21, 0, 0x3, 27), (22, 0, 0xff, 19), (23, 0, 0xff, 11),
   (24, 0, 0xff, 3), (25, 5, 0x7, 0)], [(25, 0, 0x1f, 24), (26, 0, 0xff, 16), (27, 0, 0xff, 8),
   (28, 0, 0xff, 0)]]

def unpackBits30 : BlockTable := [
  [(0, 0, 0xff, 22), (1, 0, 0xff, 14), (2, 0, 0xff, 6), (3, 2, 0x3f, 0)], [(3, 0, 0x3, 28),
   (4, 0, 0xff, 20), (5, 0, 0xff, 12), (6, 0, 0xff, 4), (7, 4, 0xf, 0)], [(7, 0, 0xf, 26),
   (8, 0, 0xff, 18), (9, 0, 0xff, 10), (10, 0, 0xff, 2), (11, 6, 0x3, 0)], [(11, 0, 0x3f, 24),
   (12, 0, 0xff, 16), (13, 0, 0xff, 8), (14, 0, 0xff, 0)], [(15, 0, 0xff, 22), (16, 0, 0xff, 14),
   (17, 0, 0xff, 6), (18, 2, 0x3f, 0)], [(18, 0, 0x3, 28), (19, 0, 0xff, 20), (20, 0, 0xff, 12),
   (21, 0, 0xff, 4), (22, 4, 0xf, 0)], [(22, 0, 0xf, 26), (23, 0, 0xff, 18), (24, 0, 0xff, 10),
   (25, 0, 0xff, 2), (26, 6, 0x3, 0)], [(26, 0, 0x3f, 24), (27, 0, 0xff, 16), (28, 0, 0xff, 8),
   (29, 0, 0xff, 0)]]

def unpackBits31 : BlockTable := [
  [(0, 0, 0xff, 23), (1, 0, 0xff, 15), (2, 0, 0xff, 7), (3, 1, 0x7f, 0)], [(3, 0, 0x1, 30),
   (4, 0, 0xff, 22), (5, 0, 0xff, 14), (6, 0, 0xff, 6), (7, 2, 0x3f, 0)], [(7, 0, 0x3, 29),
   (8, 0, 0xff, 21), (9, 0, 0xff, 13), (10, 0, 0xff, 5), (11, 3, 0x1f, 0)], [(11, 0, 0x7, 28),
   (12, 0, 0xff, 20), (13, 0, 0xff, 12), (14, 0, 0xff, 4), (15, 4, 0xf, 0)], [(15, 0, 0xf, 27),
   (16, 0, 0xff, 19), (17, 0, 0xff, 11), (18, 0, 0xff, 3), (19, 5, 0x7, 0)], [(19, 0, 0x1f, 26),
   (20, 0, 0xff, 18), (21, 0, 0xff, 10), (22, 0, 0xff, 2), (23, 6, 0x3, 0)], [(23, 0, 0x3f, 25),
   (24, 0, 0xff, 17), (25, 0, 0xff, 9), (26, 0, 0xff, 1), (27, 7, 0x1, 0)], [(27, 0, 0x7f, 24),
   (28, 0, 0xff, 16), (29, 0, 0xff, 8), (30, 0, 0xff, 0)]]

def unpackBits32 : BlockTable := [
  [(0, 0, 0xff, 24), (1, 0, 0xff, 16), (2, 0, 0xff, 8), (3, 0, 0xff, 0)], [(4, 0, 0xff, 24),
   (5, 0, 0xff, 16), (6, 0, 0xff, 8), (7, 0, 0xff, 0)], [(8, 0, 0xff, 24), (9, 0, 0xff, 16),
   (10, 0, 0xff, 8), (11, 0, 0xff, 0)], [(12, 0, 0xff, 24), (13, 0, 0xff, 16), (14, 0, 0xff, 8),
   (15, 0, 0xff, 0)], [(16, 0, 0xff, 24), (17, 0, 0xff, 16), (18, 0, 0xff, 8), (19, 0, 0xff, 0)],
   [(20, 0, 0xff, 24), (21, 0, 0xff, 16), (22, 0, 0xff, 8), (23, 0, 0xff, 0)], [(24, 0, 0xff, 24),
   (25, 0, 0xff, 16), (26, 0, 0xff, 8), (27, 0, 0xff, 0)], [(28, 0, 0xff, 24), (29, 0, 0xff, 16),
   (30, 0, 0xff, 8), (31, 0, 0xff, 0)]]

def unpackBits33 : BlockTable := [
  [(0, 0, 0xff, 25), (1, 0, 0xff, 17), (2, 0, 0xff, 9), (3, 0, 0xff, 1), (4, 7, 0x1, 0)],
   [(4, 0, 0x7f, 26), (5, 0, 0xff, 18), (6, 0, 0xff, 10), (7, 0, 0xff, 2), (8, 6, 0x3, 0)],
   [(8, 0, 0x3f, 27), (9, 0, 0xff, 19), (10, 0, 0xff, 11), (11, 0, 0xff, 3), (12, 5, 0x7, 0)],
   [(12, 0, 0x1f, 28), (13, 0, 0xff, 20), (14, 0, 0xff, 12), (15, 0, 0xff, 4), (16, 4, 0xf, 0)],
   [(16, 0, 0xf, 29), (17, 0, 0xff, 21), (18, 0, 0xff, 13), (19, 0, 0xff, 5), (20, 3, 0x1f, 0)],
   [(20, 0, 0x7, 30), (21, 0, 0xff, 22), (22, 0, 0xff, 14), (23, 0, 0xff, 6), (24, 2, 0x3f, 0)],
   [(24, 0, 0x3, 31), (25, 0, 0xff, 23), (26, 0, 0xff, 15), (27, 0, 0xff, 7), (28, 1, 0x7f, 0)],
   [(28, 0, 0x1, 32), (29, 0, 0xff, 24), (30, 0, 0xff, 16), (31, 0, 0xff, 8), (32, 0, 0xff, 0)]]

def unpackBits34 : BlockTable := [
  [(0, 0, 0xff, 26), (1, 0, 0xff, 18), (2, 0, 0xff, 10), (3, 0, 0xff, 2), (4, 6, 0x3, 0)],
   [(4, 0, 0x3f, 28), (5, 0, 0xff, 20), (6, 0, 0xff, 12), (7, 0, 0xff, 4), (8, 4, 0xf, 0)],
   [(8, 0, 0xf, 30), (9, 0, 0xff, 22), (10, 0, 0xff, 14), (11, 0, 0xff, 6), (12, 2, 0x3f, 0)],
   [(12, 0, 0x3, 32), (13, 0, 0xff, 24), (14, 0, 0xff, 16), (15, 0, 0xff, 8), (16, 0, 0xff, 0)],
   [(17, 0, 0xff, 26), (18, 0, 0xff, 18), (19, 0, 0xff, 10), (20, 0, 0xff, 2), (21, 6, 0x3, 0)],
   [(21, 0, 0x3f, 28), (22, 0, 0xff, 20), (23, 0, 0xff, 12), (24, 0, 0xff, 4), (25, 4, 0xf, 0)],
   [(25, 0, 0xf, 30), (26, 0, 0xff, 22), (27, 0, 0xff, 14), (28, 0, 0xff, 6), (29, 2, 0x3f, 0)],
   [(29, 0, 0x3, 32), (30, 0, 0xff, 24), (31, 0, 0xff, 16), (32, 0, 0xff, 8), (33, 0, 0xff, 0)]]

def unpackBits35 : BlockTable := [
  [(0, 0, 0xff, 27), (1, 0, 0xff, 19), (2, 0, 0xff, 11), (3, 0, 0xff, 3), (4, 5, 0x7, 0)],
   [(4, 0, 0x1f, 30), (5, 0, 0xff, 22), (6, 0, 0xff, 14), (7, 0, 0xff, 6), (8, 2, 0x3f, 0)],
   [(8, 0, 0x3, 33), (9, 0, 0xff, 25), (10, 0, 0xff, 17), (11, 0, 0xff, 9), (12, 0, 0xff, 1),
   (13, 7, 0x1, 0)], [(13, 0, 0x7f, 28), (14, 0, 0xff, 20), (15, 0, 0xff, 12), (16, 0, 0xff, 4),
   (17, 4, 0xf, 0)], [(17, 0, 0xf, 31), (18, 0, 0xff, 23), (19, 0, 0xff, 15), (20, 0, 0xff, 7),
   (21, 1, 0x7f, 0)], [(21, 0, 0x1, 34), (22, 0, 0xff, 26), (23, 0, 0xff, 18), (24, 0, 0xff, 10),
   (25, 0, 0xff, 2), (26, 6, 0x3, 0)], [(26, 0, 0x3f, 29), (27, 0, 0xff, 21), (28, 0, 0xff, 13),
   (29, 0, 0xff, 5), (30, 3, 0x1f, 0)], [(30, 0, 0x7, 32), (31, 0, 0xff, 24), (32, 0, 0xff, 16),
   (33, 0, 0xff, 8), (34, 0, 0xff, 0)]]

def unpackBits36 : BlockTable := [
  [(0, 0, 0xff, 28), (1, 0, 0xff, 20), (2, 0, 0xff, 12), (3, 0, 0xff, 4), (4, 4, 0xf, 0)],
   [(4, 0, 0xf, 32), (5, 0, 0xff, 24), (6, 0, 0xff, 16), (7, 0, 0xff, 8), (8, 0, 0xff, 0)],
   [(9, 0, 0xff, 28), (10, 0, 0xff, 20), (11, 0, 0xff, 12), (12, 0, 0xff, 4), (13, 4, 0xf, 0)],
   [(13, 0, 0xf, 32), (14, 0, 0xff, 24), (15, 0, 0xff, 16), (16, 0, 0xff, 8), (17, 0, 0xff, 0)],
   [(18, 0, 0xff, 28), (19, 0, 0xff, 20), (20, 0, 0xff, 12), (21, 0, 0xff, 4), (22, 4, 0xf, 0)],
   [(22, 0, 0xf, 32), (23, 0, 0xff, 24), (24, 0, 0xff, 16), (25, 0, 0xff, 8), (26, 0, 0xff, 0)],
   [(27, 0, 0xff, 28), (28, 0, 0xff, 20), (29, 0, 0xff, 12), (30, 0, 0xff, 4), (31, 4, 0xf, 0)],
   [(31, 0, 0xf, 32), (32, 0, 0xff, 24), (33, 0, 0xff, 16), (34, 0, 0xff, 8), (35, 0, 0xff, 0)]]

def unpackBits37 : BlockTable := [
  [(0, 0, 0xff, 29), (1, 0, 0xff, 21), (2, 0, 0xff, 13), (3, 0, 0xff, 5), (4, 3, 0x1f, 0)],
   [(4, 0, 0x7, 34), (5, 0, 0xff, 26), (6, 0, 0xff, 18), (7, 0, 0xff, 10), (8, 0, 0xff, 2),
   (9, 6, 0x3, 0)], [(9, 0, 0x3f, 31), (10, 0, 0xff, 23), (11, 0, 0xff, 15), (12, 0, 0xff, 7),
   (13, 1, 0x7f, 0)], [(13, 0, 0x1, 36), (14, 0, 0xff, 28), (15, 0, 0xff, 20), (16, 0, 0xff, 12),
   (17, 0, 0xff, 4), (18, 4, 0xf, 0)], [(18, 0, 0xf, 33), (19, 0, 0xff, 25), (20, 0, 0xff, 17),
   (21, 0, 0xff, 9), (22, 0, 0xff, 1), (23, 7, 0x1, 0)], [(23, 0, 0x7f, 30), (24, 0, 0xff, 22),
   (25, 0, 0xff, 14), (26, 0, 0xff, 6), (27, 2, 0x3f, 0)], [(27, 0, 0x3, 35), (28, 0, 0xff, 27),
   (29, 0, 0xff, 19), (30, 0, 0xff, 11), (31, 0, 0xff, 3), (32, 5, 0x7, 0)], [(32, 0, 0x1f, 32),
   (33, 0, 0xff, 24), (34, 0, 0xff, 16), (35, 0, 0xff, 8), (36, 0, 0xff, 0)]]

def unpackBits38 : BlockTable := [
  [(0, 0, 0xff, 30), (1, 0, 0xff, 22), (2, 0, 0xff, 14), (3, 0, 0xff, 6), (4, 2, 0x3f, 0)],
   [(4, 0, 0x3, 36), (5, 0, 0xff, 28), (6, 0, 0xff, 20), (7, 0, 0xff, 12), (8, 0, 0xff, 4),
   (9, 4, 0xf, 0)], [(9, 0, 0xf, 34), (10, 0, 0xff, 26), (11, 0, 0xff, 18), (12, 0, 0xff, 10),
   (13, 0, 0xff, 2), (14, 6, 0x3, 0)], [(14, 0, 0x3f, 32), (15, 0, 0xff, 24), (16, 0, 0xff, 16),
   (17, 0, 0xff, 8), (18, 0, 0xff, 0)], [(19, 0, 0xff, 30), (20, 0, 0xff, 22), (21, 0, 0xff, 14),
   (22, 0, 0xff, 6), (23, 2, 0x3f, 0)], [(23, 0, 0x3, 36), (24, 0, 0xff, 28), (25, 0, 0xff, 20),
   (26, 0, 0xff, 12), (27, 0, 0xff, 4), (28, 4, 0xf, 0)], [(28, 0, 0xf, 34), (29, 0, 0xff, 26),
   (30, 0, 0xff, 18), (31, 0, 0xff, 10), (32, 0, 0xff, 2), (33, 6, 0x3, 0)], [(33, 0, 0x3f, 32),
   (34, 0, 0xff, 24), (35, 0, 0xff, 16), (36, 0, 0xff, 8), (37, 0, 0xff, 0)]]

def unpackBits39 : BlockTable := [
  [(0, 0, 0xff, 31), (1, 0, 0xff, 23), (2, 0, 0xff, 15), (3, 0, 0xff, 7), (4, 1, 0x7f, 0)],
   [(4, 0, 0x1, 38), (5, 0, 0xff, 30), (6, 0, 0xff, 22), (7, 0, 0xff, 14), (8, 0, 0xff, 6),
   (9, 2, 0x3f, 0)], [(9, 0, 0x3, 37), (10, 0, 0xff, 29), (11, 0, 0xff, 21), (12, 0, 0xff, 13),
   (13, 0, 0xff, 5), (14, 3, 0x1f, 0)], [(14, 0, 0x7, 36), (15, 0, 0xff, 28), (16, 0, 0xff, 20),
   (17, 0, 0xff, 12), (18, 0, 0xff, 4), (19, 4, 0xf, 0)], [(19, 0, 0xf, 35), (20, 0, 0xff, 27),
   (21, 0, 0xff, 19), (22, 0, 0xff, 11), (23, 0, 0xff, 3), (24, 5, 0x7, 0)], [(24, 0, 0x1f, 34),
   (25, 0, 0xff, 26), (26, 0, 0xff, 18), (27, 0, 0xff, 10), (28, 0, 0xff, 2), (29, 6, 0x3, 0)],
   [(29, 0, 0x3f, 33), (30, 0, 0xff, 25), (31, 0, 0xff, 17), (32, 0, 0xff, 9), (33, 0, 0xff, 1),
   (34, 7, 0x1, 0)], [(34, 0, 0x7f, 32), (35, 0, 0xff, 24), (36, 0, 0xff, 16), (37, 0, 0xff, 8),
   (38, 0, 0xff, 0)]]

def unpackBits40 : BlockTable := [
  [(0, 0, 0xff, 32), (1, 0, 0xff, 24), (2, 0, 0xff, 16), (3, 0, 0xff, 8), (4, 0, 0xff, 0)],
   [(5, 0, 0xff, 32), (6, 0, 0xff, 24), (7, 0, 0xff, 16), (8, 0, 0xff, 8), (9, 0, 0xff, 0)],
   [(10, 0, 0xff, 32), (11, 0, 0xff, 24), (12, 0, 0xff, 16), (13, 0, 0xff, 8), (14, 0, 0xff, 0)],
   [(15, 0, 0xff, 32), (16, 0, 0xff, 24), (17, 0, 0xff, 16), (18, 0, 0xff, 8), (19, 0, 0xff, 0)],
   [(20, 0, 0xff, 32), (21, 0, 0xff, 24), (22, 0, 0xff, 16), (23, 0, 0xff, 8), (24, 0, 0xff, 0)],
   [(25, 0, 0xff, 32), (26, 0, 0xff, 24), (27, 0, 0xff, 16), (28, 0, 0xff, 8), (29, 0, 0xff, 0)],
   [(30, 0, 0xff, 32), (31, 0, 0xff, 24), (32, 0, 0xff, 16), (33, 0, 0xff, 8), (34, 0, 0xff, 0)],
   [(35, 0, 0xff, 32), (36, 0, 0xff, 24), (37, 0, 0xff, 16), (38, 0, 0xff, 8), (39, 0, 0xff, 0)]]

def unpackBits41 : BlockTable := [
  [(0, 0, 0xff, 33), (1, 0, 0xff, 25), (2, 0, 0xff, 17), (3, 0, 0xff, 9), (4, 0, 0xff, 1),
   (5, 7, 0x1, 0)], [(5, 0, 0x7f, 34), (6, 0, 0xff, 26), (7, 0, 0xff, 18), (8, 0, 0xff, 10),
   (9, 0, 0xff, 2), (10, 6, 0x3, 0)], [(10, 0, 0x3f, 35), (11, 0, 0xff, 27), (12, 0, 0xff, 19),
   (13, 0, 0xff, 11), (14, 0, 0xff, 3), (15, 5, 0x7, 0)], [(15, 0, 0x1f, 36), (16, 0, 0xff, 28),
   (17, 0, 0xff, 20), (18, 0, 0xff, 12), (19, 0, 0xff, 4), (20, 4, 0xf, 0)], [(20, 0, 0xf, 37),
   (21, 0, 0xff, 29), (22, 0, 0xff, 21), (23, 0, 0xff, 13), (24, 0, 0xff, 5), (25, 3, 0x1f, 0)],
   [(25, 0, 0x7, 38), (26, 0, 0xff, 30), (27, 0, 0xff, 22), (28, 0, 0xff, 14), (29, 0, 0xff, 6),
   (30, 2, 0x3f, 0)], [(30, 0, 0x3, 39), (31, 0, 0xff, 31), (32, 0, 0xff, 23), (33, 0, 0xff, 15),
   (34, 0, 0xff, 7), (35, 1, 0x7f, 0)], [(35, 0, 0x1, 40), (36, 0, 0xff, 32), (37, 0, 0xff, 24),
   (38, 0, 0xff, 16), (39, 0, 0xff, 8), (40, 0, 0xff, 0)]]

def unpackBits42 : BlockTable := [
  [(0, 0, 0xff, 34), (1, 0, 0xff, 26), (2, 0, 0xff, 18), (3, 0, 0xff, 10), (4, 0, 0xff, 2),
   (5, 6, 0x3, 0)], [(5, 0, 0x3f, 36), (6, 0, 0xff, 28), (7, 0, 0xff, 20), (8, 0, 0xff, 12),
   (9, 0, 0xff, 4), (10, 4, 0xf, 0)], [(10, 0, 0xf, 38), (11, 0, 0xff, 30), (12, 0, 0xff, 22),
   (13, 0, 0xff, 14), (14, 0, 0xff, 6), (15, 2, 0x3f, 0)], [(15, 0, 0x3, 40), (16, 0, 0xff, 32),
   (17, 0, 0xff, 24), (18, 0, 0xff, 16), (19, 0, 0xff, 8), (20, 0, 0xff, 0)], [(21, 0, 0xff, 34),
   (22, 0, 0xff, 26), (23, 0, 0xff, 18), (24, 0, 0xff, 10), (25, 0, 0xff, 2), (26, 6, 0x3, 0)],
   [(26, 0, 0x3f, 36), (27, 0, 0xff, 28), (28, 0, 0xff, 20), (29, 0, 0xff, 12), (30, 0, 0xff, 4),
   (31, 4, 0xf, 0)], [(31, 0, 0xf, 38), (32, 0, 0xff, 30), (33, 0, 0xff, 22), (34, 0, 0xff, 14),
   (35, 0, 0xff, 6), (36, 2, 0x3f, 0)], [(36, 0, 0x3, 40), (37, 0, 0xff, 32), (38, 0, 0xff, 24),
   (39, 0, 0xff, 16), (40, 0, 0xff, 8), (41, 0, 0xff, 0)]]

def unpackBits43 : BlockTable := [
  [(0, 0, 0xff, 35), (1, 0, 0xff, 27), (2, 0, 0xff, 19), (3, 0, 0xff, 11), (4, 0, 0xff, 3),
   (5, 5, 0x7, 0)], [(5, 0, 0x1f, 38), (6, 0, 0xff, 30), (7, 0, 0xff, 22), (8, 0, 0xff, 14),
   (9, 0, 0xff, 6), (10, 2, 0x3f, 0)], [(10, 0, 0x3, 41), (11, 0, 0xff, 33), (12, 0, 0xff, 25),
   (13, 0, 0xff, 17), (14, 0, 0xff, 9), (15, 0, 0xff, 1), (16, 7, 0x1, 0)], [(16, 0, 0x7f, 36),
   (17, 0, 0xff, 28), (18, 0, 0xff, 20), (19, 0, 0xff, 12), (20, 0, 0xff, 4), (21, 4, 0xf, 0)],
   [(21, 0, 0xf, 39), (22, 0, 0xff, 31), (23, 0, 0xff, 23), (24, 0, 0xff, 15), (25, 0, 0xff, 7),
   (26, 1, 0x7f, 0)], [(26, 0, 0x1, 42), (27, 0, 0xff, 34), (28, 0, 0xff, 26), (29, 0, 0xff, 18),
   (30, 0, 0xff, 10), (31, 0, 0xff, 2), (32, 6, 0x3, 0)], [(32, 0, 0x3f, 37), (33, 0, 0xff, 29),
   (34, 0, 0xff, 21), (35, 0, 0xff, 13), (36, 0, 0xff, 5), (37, 3, 0x1f, 0)], [(37, 0, 0x7, 40),
   (38, 0, 0xff, 32), (39, 0, 0xff, 24), (40, 0, 0xff, 16), (41, 0, 0xff, 8), (42, 0, 0xff, 0)]]

def unpackBits44 : BlockTable := [
  [(0, 0, 0xff, 36), (1, 0, 0xff, 28), (2, 0, 0xff, 20), (3, 0, 0xff, 12), (4, 0, 0xff, 4),
   (5, 4, 0xf, 0)], [(5, 0, 0xf, 40), (6, 0, 0xff, 32), (7, 0, 0xff, 24), (8, 0, 0xff, 16),
   (9, 0, 0xff, 8), (10, 0, 0xff, 0)], [(11, 0, 0xff, 36), (12, 0, 0xff, 28), (13, 0, 0xff, 20),
   (14, 0, 0xff, 12), (15, 0, 0xff, 4), (16, 4, 0xf, 0)], [(16, 0, 0xf, 40), (17, 0, 0xff, 32),
   (18, 0, 0xff, 24), (19, 0, 0xff, 16), (20, 0, 0xff, 8), (21, 0, 0xff, 0)], [(22, 0, 0xff, 36),
   (23, 0, 0xff, 28), (24, 0, 0xff, 20), (25, 0, 0xff, 12), (26, 0, 0xff, 4), (27, 4, 0xf, 0)],
   [(27, 0, 0xf, 40), (28, 0, 0xff, 32), (29, 0, 0xff, 24), (30, 0, 0xff, 16), (31, 0, 0xff, 8),
   (32, 0, 0xff, 0)], [(33, 0, 0xff, 36), (34, 0, 0xff, 28), (35, 0, 0xff, 20), (36, 0, 0xff, 12),
   (37, 0, 0xff, 4), (38, 4, 0xf, 0)], [(38, 0, 0xf, 40), (39, 0, 0xff, 32), (40, 0, 0xff, 24),
   (41, 0, 0xff, 16), (42, 0, 0xff, 8), (43, 0, 0xff, 0)]]

def unpackBits45 : BlockTable := [
  [(0, 0, 0xff, 37), (1, 0, 0xff, 29), (2, 0, 0xff, 21), (3, 0, 0xff, 13), (4, 0, 0xff, 5),
   (5, 3, 0x1f, 0)], [(5, 0, 0x7, 42), (6, 0, 0xff, 34), (7, 0, 0xff, 26), (8, 0, 0xff, 18),
   (9, 0, 0xff, 10), (10, 0, 0xff, 2), (11, 6, 0x3, 0)], [(11, 0, 0x3f, 39), (12, 0, 0xff, 31),
   (13, 0, 0xff, 23), (14, 0, 0xff, 15), (15, 0, 0xff, 7), (16, 1, 0x7f, 0)], [(16, 0, 0x1, 44),
   (17, 0, 0xff, 36), (18, 0, 0xff, 28), (19, 0, 0xff, 20), (20, 0, 0xff, 12), (21, 0, 0xff, 4),
   (22, 4, 0xf, 0)], [(22, 0, 0xf, 41), (23, 0, 0xff, 33), (24, 0, 0xff, 25), (25, 0, 0xff, 17),
   (26, 0, 0xff, 9), (27, 0, 0xff, 1), (28, 7, 0x1, 0)], [(28, 0, 0x7f, 38), (29, 0, 0xff, 30),
   (30, 0, 0xff, 22), (31, 0, 0xff, 14), (32, 0, 0xff, 6), (33, 2, 0x3f, 0)], [(33, 0, 0x3, 43),
   (34, 0, 0xff, 35), (35, 0, 0xff, 27), (36, 0, 0xff, 19), (37, 0, 0xff, 11), (38, 0, 0xff, 3),
   (39, 5, 0x7, 0)], [(39, 0, 0x1f, 40), (40, 0, 0xff, 32), (41, 0, 0xff, 24), (42, 0, 0xff, 16),
   (43, 0, 0xff, 8), (44, 0, 0xff, 0)]]

def unpackBits46 : BlockTable := [
  [(0, 0, 0xff, 38), (1, 0, 0xff, 30), (2, 0, 0xff, 22), (3, 0, 0xff, 14), (4, 0, 0xff, 6),
   (5, 2, 0x3f, 0)], [(5, 0, 0x3, 44), (6, 0, 0xff, 36), (7, 0, 0xff, 28), (8, 0, 0xff, 20),
   (9, 0, 0xff, 12), (10, 0, 0xff, 4), (11, 4, 0xf, 0)], [(11, 0, 0xf, 42), (12, 0, 0xff, 34),
   (13, 0, 0xff, 26), (14, 0, 0xff, 18), (15, 0, 0xff, 10), (16, 0, 0xff, 2), (17, 6, 0x3, 0)],
   [(17, 0, 0x3f, 40), (18, 0, 0xff, 32), (19, 0, 0xff, 24), (20, 0, 0xff, 16), (21, 0, 0xff, 8),
   (22, 0, 0xff, 0)], [(23, 0, 0xff, 38), (24, 0, 0xff, 30), (25, 0, 0xff, 22), (26, 0, 0xff, 14),
   (27, 0, 0xff, 6), (28, 2, 0x3f, 0)], [(28, 0, 0x3, 44), (29, 0, 0xff, 36), (30, 0, 0xff, 28),
   (31, 0, 0xff, 20), (32, 0, 0xff, 12), (33, 0, 0xff, 4), (34, 4, 0xf, 0)], [(34, 0, 0xf, 42),
   (35, 0, 0xff, 34), (36, 0, 0xff, 26), (37, 0, 0xff, 18), (38, 0, 0xff, 10), (39, 0, 0xff, 2),
   (40, 6, 0x3, 0)], [(40, 0, 0x3f, 40), (41, 0, 0xff, 32), (42, 0, 0xff, 24), (43, 0, 0xff, 16),
   (44, 0, 0xff, 8), (45, 0, 0xff, 0)]]

def unpackBits47 : BlockTable := [
  [(0, 0, 0xff, 39), (1, 0, 0xff, 31), (2, 0, 0xff, 23), (3, 0, 0xff, 15), (4, 0, 0xff, 7),
   (5, 1, 0x7f, 0)], [(5, 0, 0x1, 46), (6, 0, 0xff, 38), (7, 0, 0xff, 30), (8, 0, 0xff, 22),
   (9, 0, 0xff, 14), (10, 0, 0xff, 6), (11, 2, 0x3f, 0)], [(11, 0, 0x3, 45), (12, 0, 0xff, 37),
   (13, 0, 0xff, 29), (14, 0, 0xff, 21), (15, 0, 0xff, 13), (16, 0, 0xff, 5), (17, 3, 0x1f, 0)],
   [(17, 0, 0x7, 44), (18, 0, 0xff, 36), (19, 0, 0xff, 28), (20, 0, 0xff, 20), (21, 0, 0xff, 12),
   (22, 0, 0xff, 4), (23, 4, 0xf, 0)], [(23, 0, 0xf, 43), (24, 0, 0xff, 35), (25, 0, 0xff, 27),
   (26, 0, 0xff, 19), (27, 0, 0xff, 11), (28, 0, 0xff, 3), (29, 5, 0x7, 0)], [(29, 0, 0x1f, 42),
   (30, 0, 0xff, 34), (31, 0, 0xff, 26), (32, 0, 0xff, 18), (33, 0, 0xff, 10), (34, 0, 0xff, 2),
   (35, 6, 0x3, 0)], [(35, 0, 0x3f, 41), (36, 0, 0xff, 33), (37, 0, 0xff, 25), (38, 0, 0xff, 17),
   (39, 0, 0xff, 9), (40, 0, 0xff, 1), (41, 7, 0x1, 0)], [(41, 0, 0x7f, 40), (42, 0, 0xff, 32),
   (43, 0, 0xff, 24), (44, 0, 0xff, 16), (45, 0, 0xff, 8), (46, 0, 0xff, 0)]]

def unpackBits48 : BlockTable := [
  [(0, 0, 0xff, 40), (1, 0, 0xff, 32), (2, 0, 0xff, 24), (3, 0, 0xff, 16), (4, 0, 0xff, 8),
   (5, 0, 0xff, 0)], [(6, 0, 0xff, 40), (7, 0, 0xff, 32), (8, 0, 0xff, 24), (9, 0, 0xff, 16),
   (10, 0, 0xff, 8), (11, 0, 0xff, 0)], [(12, 0, 0xff, 40), (13, 0, 0xff, 32), (14, 0, 0xff, 24),
   (15, 0, 0xff, 16), (16, 0, 0xff, 8), (17, 0, 0xff, 0)], [(18, 0, 0xff, 40), (19, 0, 0xff, 32),
   (20, 0, 0xff, 24), (21, 0, 0xff, 16), (22, 0, 0xff, 8), (23, 0, 0xff, 0)], [(24, 0, 0xff, 40),
   (25, 0, 0xff, 32), (26, 0, 0xff, 24), (27, 0, 0xff, 16), (28, 0, 0xff, 8), (29, 0, 0xff, 0)],
   [(30, 0, 0xff, 40), (31, 0, 0xff, 32), (32, 0, 0xff, 24), (33, 0, 0xff, 16), (34, 0, 0xff, 8),
   (35, 0, 0xff, 0)], [(36, 0, 0xff, 40), (37, 0, 0xff, 32), (38, 0, 0xff, 24), (39, 0, 0xff, 16),
   (40, 0, 0xff, 8), (41, 0, 0xff, 0)], [(42, 0, 0xff, 40), (43, 0, 0xff, 32), (44, 0, 0xff, 24),
   (45, 0, 0xff, 16), (46, 0, 0xff, 8), (47, 0, 0xff, 0)]]

def unpackBits49 : BlockTable := [
  [(0, 0, 0xff, 41), (1, 0, 0xff, 33), (2, 0, 0xff, 25), (3, 0, 0xff, 17), (4, 0, 0xff, 9),
   (5, 0, 0xff, 1), (6, 7, 0x1, 0)], [(6, 0, 0x7f, 42), (7, 0, 0xff, 34), (8, 0, 0xff, 26),
   (9, 0, 0xff, 18), (10, 0, 0xff, 10), (11, 0, 0xff, 2), (12, 6, 0x3, 0)], [(12, 0, 0x3f, 43),
   (13, 0, 0xff, 35), (14, 0, 0xff, 27), (15, 0, 0xff, 19), (16, 0, 0xff, 11), (17, 0, 0xff, 3),
   (18, 5, 0x7, 0)], [(18, 0, 0x1f, 44), (19, 0, 0xff, 36), (20, 0, 0xff, 28), (21, 0, 0xff, 20),
   (22, 0, 0xff, 12), (23, 0, 0xff, 4), (24, 4, 0xf, 0)], [(24, 0, 0xf, 45), (25, 0, 0xff, 37),
   (26, 0, 0xff, 29), (27, 0, 0xff, 21), (28, 0, 0xff, 13), (29, 0, 0xff, 5), (30, 3, 0x1f, 0)],
   [(30, 0, 0x7, 46), (31, 0, 0xff, 38), (32, 0, 0xff, 30), (33, 0, 0xff, 22), (34, 0, 0xff, 14),
   (35, 0, 0xff, 6), (36, 2, 0x3f, 0)], [(36, 0, 0x3, 47), (37, 0, 0xff, 39), (38, 0, 0xff, 31),
   (39, 0, 0xff, 23), (40, 0, 0xff, 15), (41, 0, 0xff, 7), (42, 1, 0x7f, 0)], [(42, 0, 0x1, 48),
   (43, 0, 0xff, 40), (44, 0, 0xff, 32), (45, 0, 0xff, 24), (46, 0, 0xff, 16), (47, 0, 0xff, 8),
   (48, 0, 0xff, 0)]]

def unpackBits50 : BlockTable := [
  [(0, 0, 0xff, 42), (1, 0, 0xff, 34), (2, 0, 0xff, 26), (3, 0, 0xff, 18), (4, 0, 0xff, 10),
   (5, 0, 0xff, 2), (6, 6, 0x3, 0)], [(6, 0, 0x3f, 44), (7, 0, 0xff, 36), (8, 0, 0xff, 28),
   (9, 0, 0xff, 20), (10, 0, 0xff, 12), (11, 0, 0xff, 4), (12, 4, 0xf, 0)], [(12, 0, 0xf, 46),
   (13, 0, 0xff, 38), (14, 0, 0xff, 30), (15, 0, 0xff, 22), (16, 0, 0xff, 14), (17, 0, 0xff, 6),
   (18, 2, 0x3f, 0)], [(18, 0, 0x3, 48), (19, 0, 0xff, 40), (20, 0, 0xff, 32), (21, 0, 0xff, 24),
   (22, 0, 0xff, 16), (23, 0, 0xff, 8), (24, 0, 0xff, 0)], [(25, 0, 0xff, 42), (26, 0, 0xff, 34),
   (27, 0, 0xff, 26), (28, 0, 0xff, 18), (29, 0, 0xff, 10), (30, 0, 0xff, 2), (31, 6, 0x3, 0)],
   [(31, 0, 0x3f, 44), (32, 0, 0xff, 36), (33, 0, 0xff, 28), (34, 0, 0xff, 20), (35, 0, 0xff, 12),
   (36, 0, 0xff, 4), (37, 4, 0xf, 0)], [(37, 0, 0xf, 46), (38, 0, 0xff, 38), (39, 0, 0xff, 30),
   (40, 0, 0xff, 22), (41, 0, 0xff, 14), (42, 0, 0xff, 6), (43, 2, 0x3f, 0)], [(43, 0, 0x3, 48),
   (44, 0, 0xff, 40), (45, 0, 0xff, 32), (46, 0, 0xff, 24), (47, 0, 0xff, 16), (48, 0, 0xff, 8),
   (49, 0, 0xff, 0)]]

def unpackBits51 : BlockTable := [
  [(0, 0, 0xff, 43), (1, 0, 0xff, 35), (2, 0, 0xff, 27), (3, 0, 0xff, 19), (4, 0, 0xff, 11),
   (5, 0, 0xff, 3), (6, 5, 0x7, 0)], [(6, 0, 0x1f, 46), (7, 0, 0xff, 38), (8, 0, 0xff, 30),
   (9, 0, 0xff, 22), (10, 0, 0xff, 14), (11, 0, 0xff, 6), (12, 2, 0x3f, 0)], [(12, 0, 0x3, 49),
   (13, 0, 0xff, 41), (14, 0, 0xff, 33), (15, 0, 0xff, 25), (16, 0, 0xff, 17), (17, 0, 0xff, 9),
   (18, 0, 0xff, 1), (19, 7, 0x1, 0)], [(19, 0, 0x7f, 44), (20, 0, 0xff, 36), (21, 0, 0xff, 28),
   (22, 0, 0xff, 20), (23, 0, 0xff, 12), (24, 0, 0xff, 4), (25, 4, 0xf, 0)], [(25, 0, 0xf, 47),
   (26, 0, 0xff, 39), (27, 0, 0xff, 31), (28, 0, 0xff, 23), (29, 0, 0xff, 15), (30, 0, 0xff, 7),
   (31, 1, 0x7f, 0)], [(31, 0, 0x1, 50), (32, 0, 0xff, 42), (33, 0, 0xff, 34), (34, 0, 0xff, 26),
   (35, 0, 0xff, 18), (36, 0, 0xff, 10), (37, 0, 0xff, 2), (38, 6, 0x3, 0)], [(38, 0, 0x3f, 45),
   (39, 0, 0xff, 37), (40, 0, 0xff, 29), (41, 0, 0xff, 21), (42, 0, 0xff, 13), (43, 0, 0xff, 5),
   (44, 3, 0x1f, 0)], [(44, 0, 0x7, 48), (45, 0, 0xff, 40), (46, 0, 0xff, 32), (47, 0, 0xff, 24),
   (48, 0, 0xff, 16), (49, 0, 0xff, 8), (50, 0, 0xff, 0)]]

def unpackBits52 : BlockTable := [
  [(0, 0, 0xff, 44), (1, 0, 0xff, 36), (2, 0, 0xff, 28), (3, 0, 0xff, 20), (4, 0, 0xff, 12),
   (5, 0, 0xff, 4), (6, 4, 0xf, 0)], [(6, 0, 0xf, 48), (7, 0, 0xff, 40), (8, 0, 0xff, 32),
   (9, 0, 0xff, 24), (10, 0, 0xff, 16), (11, 0, 0xff, 8), (12, 0, 0xff, 0)], [(13, 0, 0xff, 44),
   (14, 0, 0xff, 36), (15, 0, 0xff, 28), (16, 0, 0xff, 20), (17, 0, 0xff, 12), (18, 0, 0xff, 4),
   (19, 4, 0xf, 0)], [(19, 0, 0xf, 48), (20, 0, 0xff, 40), (21, 0, 0xff, 32), (22, 0, 0xff, 24),
   (23, 0, 0xff, 16), (24, 0, 0xff, 8), (25, 0, 0xff, 0)], [(26, 0, 0xff, 44), (27, 0, 0xff, 36),
   (28, 0, 0xff, 28), (29, 0, 0xff, 20), (30, 0, 0xff, 12), (31, 0, 0xff, 4), (32, 4, 0xf, 0)],
   [(32, 0, 0xf, 48), (33, 0, 0xff, 40), (34, 0, 0xff, 32), (35, 0, 0xff, 24), (36, 0, 0xff, 16),
   (37, 0, 0xff, 8), (38, 0, 0xff, 0)], [(39, 0, 0xff, 44), (40, 0, 0xff, 36), (41, 0, 0xff, 28),
   (42, 0, 0xff, 20), (43, 0, 0xff, 12), (44, 0, 0xff, 4), (45, 4, 0xf, 0)], [(45, 0, 0xf, 48),
   (46, 0, 0xff, 40), (47, 0, 0xff, 32), (48, 0, 0xff, 24), (49, 0, 0xff, 16), (50, 0, 0xff, 8),
   (51, 0, 0xff, 0)]]

def unpackBits53 : BlockTable := [
  [(0, 0, 0xff, 45), (1, 0, 0xff, 37), (2, 0, 0xff, 29), (3, 0, 0xff, 21), (4, 0, 0xff, 13),
   (5, 0, 0xff, 5), (6, 3, 0x1f, 0)], [(6, 0, 0x7, 50), (7, 0, 0xff, 42), (8, 0, 0xff, 34),
   (9, 0, 0xff, 26), (10, 0, 0xff, 18), (11, 0, 0xff, 10), (12, 0, 0xff, 2), (13, 6, 0x3, 0)],
   [(13, 0, 0x3f, 47), (14, 0, 0xff, 39), (15, 0, 0xff, 31), (16, 0, 0xff, 23), (17, 0, 0xff, 15),
   (18, 0, 0xff, 7), (19, 1, 0x7f, 0)], [(19, 0, 0x1, 52), (20, 0, 0xff, 44), (21, 0, 0xff, 36),
   (22, 0, 0xff, 28), (23, 0, 0xff, 20), (24, 0, 0xff, 12), (25, 0, 0xff, 4), (26, 4, 0xf, 0)],
   [(26, 0, 0xf, 49), (27, 0, 0xff, 41), (28, 0, 0xff, 33), (29, 0, 0xff, 25), (30, 0, 0xff, 17),
   (31, 0, 0xff, 9), (32, 0, 0xff, 1), (33, 7, 0x1, 0)], [(33, 0, 0x7f, 46), (34, 0, 0xff, 38),
   (35, 0, 0xff, 30), (36, 0, 0xff, 22), (37, 0, 0xff, 14), (38, 0, 0xff, 6), (39, 2, 0x3f, 0)],
   [(39, 0, 0x3, 51), (40, 0, 0xff, 43), (41, 0, 0xff, 35), (42, 0, 0xff, 27), (43, 0, 0xff, 19),
   (44, 0, 0xff, 11), (45, 0, 0xff, 3), (46, 5, 0x7, 0)], [(46, 0, 0x1f, 48), (47, 0, 0xff, 40),
   (48, 0, 0xff, 32), (49, 0, 0xff, 24), (50, 0, 0xff, 16), (51, 0, 0xff, 8), (52, 0, 0xff, 0)]]

def unpackBits54 : BlockTable := [
  [(0, 0, 0xff, 46), (1, 0, 0xff, 38), (2, 0, 0xff, 30), (3, 0, 0xff, 22), (4, 0, 0xff, 14),
   (5, 0, 0xff, 6), (6, 2, 0x3f, 0)], [(6, 0, 0x3, 52), (7, 0, 0xff, 44), (8, 0, 0xff, 36),
   (9, 0, 0xff, 28), (10, 0, 0xff, 20), (11, 0, 0xff, 12), (12, 0, 0xff, 4), (13, 4, 0xf, 0)],
   [(13, 0, 0xf, 50), (14, 0, 0xff, 42), (15, 0, 0xff, 34), (16, 0, 0xff, 26), (17, 0, 0xff, 18),
   (18, 0, 0xff, 10), (19, 0, 0xff, 2), (20, 6, 0x3, 0)], [(20, 0, 0x3f, 48), (21, 0, 0xff, 40),
   (22, 0, 0xff, 32), (23, 0, 0xff, 24), (24, 0, 0xff, 16), (25, 0, 0xff, 8), (26, 0, 0xff, 0)],
   [(27, 0, 0xff, 46), (28, 0, 0xff, 38), (29, 0, 0xff, 30), (30, 0, 0xff, 22), (31, 0, 0xff, 14),
   (32, 0, 0xff, 6), (33, 2, 0x3f, 0)], [(33, 0, 0x3, 52), (34, 0, 0xff, 44), (35, 0, 0xff, 36),
   (36, 0, 0xff, 28), (37, 0, 0xff, 20), (38, 0, 0xff, 12), (39, 0, 0xff, 4), (40, 4, 0xf, 0)],
   [(40, 0, 0xf, 50), (41, 0, 0xff, 42), (42, 0, 0xff, 34), (43, 0, 0xff, 26), (44, 0, 0xff, 18),
   (45, 0, 0xff, 10), (46, 0, 0xff, 2), (47, 6, 0x3, 0)], [(47, 0, 0x3f, 48), (48, 0, 0xff, 40),
   (49, 0, 0xff, 32), (50, 0, 0xff, 24), (51, 0, 0xff, 16), (52, 0, 0xff, 8), (53, 0, 0xff, 0)]]

def unpackBits55 : BlockTable := [
  [(0, 0, 0xff, 47), (1, 0, 0xff, 39), (2, 0, 0xff, 31), (3, 0, 0xff, 23), (4, 0, 0xff, 15),
   (5, 0, 0xff, 7), (6, 1, 0x7f, 0)], [(6, 0, 0x1, 54), (7, 0, 0xff, 46), (8, 0, 0xff, 38),
   (9, 0, 0xff, 30), (10, 0, 0xff, 22), (11, 0, 0xff, 14), (12, 0, 0xff, 6), (13, 2, 0x3f, 0)],
   [(13, 0, 0x3, 53), (14, 0, 0xff, 45), (15, 0, 0xff, 37), (16, 0, 0xff, 29), (17, 0, 0xff, 21),
   (18, 0, 0xff, 13), (19, 0, 0xff, 5), (20, 3, 0x1f, 0)], [(20, 0, 0x7, 52), (21, 0, 0xff, 44),
   (22, 0, 0xff, 36), (23, 0, 0xff, 28), (24, 0, 0xff, 20), (25, 0, 0xff, 12), (26, 0, 0xff, 4),
   (27, 4, 0xf, 0)], [(27, 0, 0xf, 51), (28, 0, 0xff, 43), (29, 0, 0xff, 35), (30, 0, 0xff, 27),
   (31, 0, 0xff, 19), (32, 0, 0xff, 11), (33, 0, 0xff, 3), (34, 5, 0x7, 0)], [(34, 0, 0x1f, 50),
   (35, 0, 0xff, 42), (36, 0, 0xff, 34), (37, 0, 0xff, 26), (38, 0, 0xff, 18), (39, 0, 0xff, 10),
   (40, 0, 0xff, 2), (41, 6, 0x3, 0)], [(41, 0, 0x3f, 49), (42, 0, 0xff, 41), (43, 0, 0xff, 33),
   (44, 0, 0xff, 25), (45, 0, 0xff, 17), (46, 0, 0xff, 9), (47, 0, 0xff, 1), (48, 7, 0x1, 0)],
   [(48, 0, 0x7f, 48), (49, 0, 0xff, 40), (50, 0, 0xff, 32), (51, 0, 0xff, 24), (52, 0, 0xff, 16),
   (53, 0, 0xff, 8), (54, 0, 0xff, 0)]]

def unpackBits56 : BlockTable := [
  [(0, 0, 0xff, 48), (1, 0, 0xff, 40), (2, 0, 0xff, 32), (3, 0, 0xff, 24), (4, 0, 0xff, 16),
   (5, 0, 0xff, 8), (6, 0, 0xff, 0)], [(7, 0, 0xff, 48), (8, 0, 0xff, 40), (9, 0, 0xff, 32),
   (10, 0, 0xff, 24), (11, 0, 0xff, 16), (12, 0, 0xff, 8), (13, 0, 0xff, 0)], [(14, 0, 0xff, 48),
   (15, 0, 0xff, 40), (16, 0, 0xff, 32), (17, 0, 0xff, 24), (18, 0, 0xff, 16), (19, 0, 0xff, 8),
   (20, 0, 0xff, 0)], [(21, 0, 0xff, 48), (22, 0, 0xff, 40), (23, 0, 0xff, 32), (24, 0, 0xff, 24),
   (25, 0, 0xff, 16), (26, 0, 0xff, 8), (27, 0, 0xff, 0)], [(28, 0, 0xff, 48), (29, 0, 0xff, 40),
   (30, 0, 0xff, 32), (31, 0, 0xff, 24), (32, 0, 0xff, 16), (33, 0, 0xff, 8), (34, 0, 0xff, 0)],
   [(35, 0, 0xff, 48), (36, 0, 0xff, 40), (37, 0, 0xff, 32), (38, 0, 0xff, 24), (39, 0, 0xff, 16),
   (40, 0, 0xff, 8), (41, 0, 0xff, 0)], [(42, 0, 0xff, 48), (43, 0, 0xff, 40), (44, 0, 0xff, 32),
   (45, 0, 0xff, 24), (46, 0, 0xff, 16), (47, 0, 0xff, 8), (48, 0, 0xff, 0)], [(49, 0, 0xff, 48),
   (50, 0, 0xff, 40), (51, 0, 0xff, 32), (52, 0, 0xff, 24), (53, 0, 0xff, 16), (54, 0, 0xff, 8),
   (55, 0, 0xff, 0)]]

def unpackBits57 : BlockTable := [
  [(0, 0, 0xff, 49), (1, 0, 0xff, 41), (2, 0, 0xff, 33), (3, 0, 0xff, 25), (4, 0, 0xff, 17),
   (5, 0, 0xff, 9), (6, 0, 0xff, 1), (7, 7, 0x1, 0)], [(7, 0, 0x7f, 50), (8, 0, 0xff, 42),
   (9, 0, 0xff, 34), (10, 0, 0xff, 26), (11, 0, 0xff, 18), (12, 0, 0xff, 10), (13, 0, 0xff, 2),
   (14, 6, 0x3, 0)], [(14, 0, 0x3f, 51), (15, 0, 0xff, 43), (16, 0, 0xff, 35), (17, 0, 0xff, 27),
   (18, 0, 0xff, 19), (19, 0, 0xff, 11), (20, 0, 0xff, 3), (21, 5, 0x7, 0)], [(21, 0, 0x1f, 52),
   (22, 0, 0xff, 44), (23, 0, 0xff, 36), (24, 0, 0xff, 28), (25, 0, 0xff, 20), (26, 0, 0xff, 12),
   (27, 0, 0xff, 4), (28, 4, 0xf, 0)], [(28, 0, 0xf, 53), (29, 0, 0xff, 45), (30, 0, 0xff, 37),
   (31, 0, 0xff, 29), (32, 0, 0xff, 21), (33, 0, 0xff, 13), (34, 0, 0xff, 5), (35, 3, 0x1f, 0)],
   [(35, 0, 0x7, 54), (36, 0, 0xff, 46), (37, 0, 0xff, 38), (38, 0, 0xff, 30), (39, 0, 0xff, 22),
   (40, 0, 0xff, 14), (41, 0, 0xff, 6), (42, 2, 0x3f, 0)], [(42, 0, 0x3, 55), (43, 0, 0xff, 47),
   (44, 0, 0xff, 39), (45, 0, 0xff, 31), (46, 0, 0xff, 23), (47, 0, 0xff, 15), (48, 0, 0xff, 7),
   (49, 1, 0x7f, 0)], [(49, 0, 0x1, 56), (50, 0, 0xff, 48), (51, 0, 0xff, 40), (52, 0, 0xff, 32),
   (53, 0, 0xff, 24), (54, 0, 0xff, 16), (55, 0, 0xff, 8), (56, 0, 0xff, 0)]]

def unpackBits58 : BlockTable := [
  [(0, 0, 0xff, 50), (1, 0, 0xff, 42), (2, 0, 0xff, 34), (3, 0, 0xff, 26), (4, 0, 0xff, 18),
   (5, 0, 0xff, 10), (6, 0, 0xff, 2), (7, 6, 0x3, 0)], [(7, 0, 0x3f, 52), (8, 0, 0xff, 44),
   (9, 0, 0xff, 36), (10, 0, 0xff, 28), (11, 0, 0xff, 20), (12, 0, 0xff, 12), (13, 0, 0xff, 4),
   (14, 4, 0xf, 0)], [(14, 0, 0xf, 54), (15, 0, 0xff, 46), (16, 0, 0xff, 38), (17, 0, 0xff, 30),
   (18, 0, 0xff, 22), (19, 0, 0xff, 14), (20, 0, 0xff, 6), (21, 2, 0x3f, 0)], [(21, 0, 0x3, 56),
   (22, 0, 0xff, 48), (23, 0, 0xff, 40), (24, 0, 0xff, 32), (25, 0, 0xff, 24), (26, 0, 0xff, 16),
   (27, 0, 0xff, 8), (28, 0, 0xff, 0)], [(29, 0, 0xff, 50), (30, 0, 0xff, 42), (31, 0, 0xff, 34),
   (32, 0, 0xff, 26), (33, 0, 0xff, 18), (34, 0, 0xff, 10), (35, 0, 0xff, 2), (36, 6, 0x3, 0)],
   [(36, 0, 0x3f, 52), (37, 0, 0xff, 44), (38, 0, 0xff, 36), (39, 0, 0xff, 28), (40, 0, 0xff, 20),
   (41, 0, 0xff, 12), (42, 0, 0xff, 4), (43, 4, 0xf, 0)], [(43, 0, 0xf, 54), (44, 0, 0xff, 46),
   (45, 0, 0xff, 38), (46, 0, 0xff, 30), (47, 0, 0xff, 22), (48, 0, 0xff, 14), (49, 0, 0xff, 6),
   (50, 2, 0x3f, 0)], [(50, 0, 0x3, 56), (51, 0, 0xff, 48), (52, 0, 0xff, 40), (53, 0, 0xff, 32),
   (54, 0, 0xff, 24), (55, 0, 0xff, 16), (56, 0, 0xff, 8), (57, 0, 0xff, 0)]]

def unpackBits59 : BlockTable := [
  [(0, 0, 0xff, 51), (1, 0, 0xff, 43), (2, 0, 0xff, 35), (3, 0, 0xff, 27), (4, 0, 0xff, 19),
   (5, 0, 0xff, 11), (6, 0, 0xff, 3), (7, 5, 0x7, 0)], [(7, 0, 0x1f, 54), (8, 0, 0xff, 46),
   (9, 0, 0xff, 38), (10, 0, 0xff, 30), (11, 0, 0xff, 22), (12, 0, 0xff, 14), (13, 0, 0xff, 6),
   (14, 2, 0x3f, 0)], [(14, 0, 0x3, 57), (15, 0, 0xff, 49), (16, 0, 0xff, 41), (17, 0, 0xff, 33),
   (18, 0, 0xff, 25), (19, 0, 0xff, 17), (20, 0, 0xff, 9), (21, 0, 0xff, 1), (22, 7, 0x1, 0)],
   [(22, 0, 0x7f, 52), (23, 0, 0xff, 44), (24, 0, 0xff, 36), (25, 0, 0xff, 28), (26, 0, 0xff, 20),
   (27, 0, 0xff, 12), (28, 0, 0xff, 4), (29, 4, 0xf, 0)], [(29, 0, 0xf, 55), (30, 0, 0xff, 47),
   (31, 0, 0xff, 39), (32, 0, 0xff, 31), (33, 0, 0xff, 23), (34, 0, 0xff, 15), (35, 0, 0xff, 7),
   (36, 1, 0x7f, 0)], [(36, 0, 0x1, 58), (37, 0, 0xff, 50), (38, 0, 0xff, 42), (39, 0, 0xff, 34),
   (40, 0, 0xff, 26), (41, 0, 0xff, 18), (42, 0, 0xff, 10), (43, 0, 0xff, 2), (44, 6, 0x3, 0)],
   [(44, 0, 0x3f, 53), (45, 0, 0xff, 45), (46, 0, 0xff, 37), (47, 0, 0xff, 29), (48, 0, 0xff, 21),
   (49, 0, 0xff, 13), (50, 0, 0xff, 5), (51, 3, 0x1f, 0)], [(51, 0, 0x7, 56), (52, 0, 0xff, 48),
   (53, 0, 0xff, 40), (54, 0, 0xff, 32), (55, 0, 0xff, 24), (56, 0, 0xff, 16), (57, 0, 0xff, 8),
   (58, 0, 0xff, 0)]]

def unpackBits60 : BlockTable := [
  [(0, 0, 0xff, 52), (1, 0, 0xff, 44), (2, 0, 0xff, 36), (3, 0, 0xff, 28), (4, 0, 0xff, 20),
   (5, 0, 0xff, 12), (6, 0, 0xff, 4), (7, 4, 0xf, 0)], [(7, 0, 0xf, 56), (8, 0, 0xff, 48),
   (9, 0, 0xff, 40), (10, 0, 0xff, 32), (11, 0, 0xff, 24), (12, 0, 0xff, 16), (13, 0, 0xff, 8),
   (14, 0, 0xff, 0)], [(15, 0, 0xff, 52), (16, 0, 0xff, 44), (17, 0, 0xff, 36), (18, 0, 0xff, 28),
   (19, 0, 0xff, 20), (20, 0, 0xff, 12), (21, 0, 0xff, 4), (22, 4, 0xf, 0)], [(22, 0, 0xf, 56),
   (23, 0, 0xff, 48), (24, 0, 0xff, 40), (25, 0, 0xff, 32), (26, 0, 0xff, 24), (27, 0, 0xff, 16),
   (28, 0, 0xff, 8), (29, 0, 0xff, 0)], [(30, 0, 0xff, 52), (31, 0, 0xff, 44), (32, 0, 0xff, 36),
   (33, 0, 0xff, 28), (34, 0, 0xff, 20), (35, 0, 0xff, 12), (36, 0, 0xff, 4), (37, 4, 0xf, 0)],
   [(37, 0, 0xf, 56), (38, 0, 0xff, 48), (39, 0, 0xff, 40), (40, 0, 0xff, 32), (41, 0, 0xff, 24),
   (42, 0, 0xff, 16), (43, 0, 0xff, 8), (44, 0, 0xff, 0)], [(45, 0, 0xff, 52), (46, 0, 0xff, 44),
   (47, 0, 0xff, 36), (48, 0, 0xff, 28), (49, 0, 0xff, 20), (50, 0, 0xff, 12), (51, 0, 0xff, 4),
   (52, 4, 0xf, 0)], [(52, 0, 0xf, 56), (53, 0, 0xff, 48), (54, 0, 0xff, 40), (55, 0, 0xff, 32),
   (56, 0, 0xff, 24), (57, 0, 0xff, 16), (58, 0, 0xff, 8), (59, 0, 0xff, 0)]]

def unpackBits61 : BlockTable := [
  [(0, 0, 0xff, 53), (1, 0, 0xff, 45), (2, 0, 0xff, 37), (3, 0, 0xff, 29), (4, 0, 0xff, 21),
   (5, 0, 0xff, 13), (6, 0, 0xff, 5), (7, 3, 0x1f, 0)], [(7, 0, 0x7, 58), (8, 0, 0xff, 50),
   (9, 0, 0xff, 42), (10, 0, 0xff, 34), (11, 0, 0xff, 26), (12, 0, 0xff, 18), (13, 0, 0xff, 10),
   (14, 0, 0xff, 2), (15, 6, 0x3, 0)], [(15, 0, 0x3f, 55), (16, 0, 0xff, 47), (17, 0, 0xff, 39),
   (18, 0, 0xff, 31), (19, 0, 0xff, 23), (20, 0, 0xff, 15), (21, 0, 0xff, 7), (22, 1, 0x7f, 0)],
   [(22, 0, 0x1, 60), (23, 0, 0xff, 52), (24, 0, 0xff, 44), (25, 0, 0xff, 36), (26, 0, 0xff, 28),
   (27, 0, 0xff, 20), (28, 0, 0xff, 12), (29, 0, 0xff, 4), (30, 4, 0xf, 0)], [(30, 0, 0xf, 57),
   (31, 0, 0xff, 49), (32, 0, 0xff, 41), (33, 0, 0xff, 33), (34, 0, 0xff, 25), (35, 0, 0xff, 17),
   (36, 0, 0xff, 9), (37, 0, 0xff, 1), (38, 7, 0x1, 0)], [(38, 0, 0x7f, 54), (39, 0, 0xff, 46),
   (40, 0, 0xff, 38), (41, 0, 0xff, 30), (42, 0, 0xff, 22), (43, 0, 0xff, 14), (44, 0, 0xff, 6),
   (45, 2, 0x3f, 0)], [(45, 0, 0x3, 59), (46, 0, 0xff, 51), (47, 0, 0xff, 43), (48, 0, 0xff, 35),
   (49, 0, 0xff, 27), (50, 0, 0xff, 19), (51, 0, 0xff, 11), (52, 0, 0xff, 3), (53, 5, 0x7, 0)],
   [(53, 0, 0x1f, 56), (54, 0, 0xff, 48), (55, 0, 0xff, 40), (56, 0, 0xff, 32), (57, 0, 0xff, 24),
   (58, 0, 0xff, 16), (59, 0, 0xff, 8), (60, 0, 0xff, 0)]]

def unpackBits62 : BlockTable := [
  [(0, 0, 0xff, 54), (1, 0, 0xff, 46), (2, 0, 0xff, 38), (3, 0, 0xff, 30), (4, 0, 0xff, 22),
   (5, 0, 0xff, 14), (6, 0, 0xff, 6), (7, 2, 0x3f, 0)], [(7, 0, 0x3, 60), (8, 0, 0xff, 52),
   (9, 0, 0xff, 44), (10, 0, 0xff, 36), (11, 0, 0xff, 28), (12, 0, 0xff, 20), (13, 0, 0xff, 12),
   (14, 0, 0xff, 4), (15, 4, 0xf, 0)], [(15, 0, 0xf, 58), (16, 0, 0xff, 50), (17, 0, 0xff, 42),
   (18, 0, 0xff, 34), (19, 0, 0xff, 26), (20, 0, 0xff, 18), (21, 0, 0xff, 10), (22, 0, 0xff, 2),
   (23, 6, 0x3, 0)], [(23, 0, 0x3f, 56), (24, 0, 0xff, 48), (25, 0, 0xff, 40), (26, 0, 0xff, 32),
   (27, 0, 0xff, 24), (28, 0, 0xff, 16), (29, 0, 0xff, 8), (30, 0, 0xff, 0)], [(31, 0, 0xff, 54),
   (32, 0, 0xff, 46), (33, 0, 0xff, 38), (34, 0, 0xff, 30), (35, 0, 0xff, 22), (36, 0, 0xff, 14),
   (37, 0, 0xff, 6), (38, 2, 0x3f, 0)], [(38, 0, 0x3, 60), (39, 0, 0xff, 52), (40, 0, 0xff, 44),
   (41, 0, 0xff, 36), (42, 0, 0xff, 28), (43, 0, 0xff, 20), (44, 0, 0xff, 12), (45, 0, 0xff, 4),
   (46, 4, 0xf, 0)], [(46, 0, 0xf, 58), (47, 0, 0xff, 50), (48, 0, 0xff, 42), (49, 0, 0xff, 34),
   (50, 0, 0xff, 26), (51, 0, 0xff, 18), (52, 0, 0xff, 10), (53, 0, 0xff, 2), (54, 6, 0x3, 0)],
   [(54, 0, 0x3f, 56), (55, 0, 0xff, 48), (56, 0, 0xff, 40), (57, 0, 0xff, 32), (58, 0, 0xff, 24),
   (59, 0, 0xff, 16), (60, 0, 0xff, 8), (61, 0, 0xff, 0)]]

def unpackBits63 : BlockTable := [
  [(0, 0, 0xff, 55), (1, 0, 0xff, 47), (2, 0, 0xff, 39), (3, 0, 0xff, 31), (4, 0, 0xff, 23),
   (5, 0, 0xff, 15), (6, 0, 0xff, 7), (7, 1, 0x7f, 0)], [(7, 0, 0x1, 62), (8, 0, 0xff, 54),
   (9, 0, 0xff, 46), (10, 0, 0xff, 38), (11, 0, 0xff, 30), (12, 0, 0xff, 22), (13, 0, 0xff, 14),
   (14, 0, 0xff, 6), (15, 2, 0x3f, 0)], [(15, 0, 0x3, 61), (16, 0, 0xff, 53), (17, 0, 0xff, 45),
   (18, 0, 0xff, 37), (19, 0, 0xff, 29), (20, 0, 0xff, 21), (21, 0, 0xff, 13), (22, 0, 0xff, 5),
   (23, 3, 0x1f, 0)], [(23, 0, 0x7, 60), (24, 0, 0xff, 52), (25, 0, 0xff, 44), (26, 0, 0xff, 36),
   (27, 0, 0xff, 28), (28, 0, 0xff, 20), (29, 0, 0xff, 12), (30, 0, 0xff, 4), (31, 4, 0xf, 0)],
   [(31, 0, 0xf, 59), (32, 0, 0xff, 51), (33, 0, 0xff, 43), (34, 0, 0xff, 35), (35, 0, 0xff, 27),
   (36, 0, 0xff, 19), (37, 0, 0xff, 11), (38, 0, 0xff, 3), (39, 5, 0x7, 0)], [(39, 0, 0x1f, 58),
   (40, 0, 0xff, 50), (41, 0, 0xff, 42), (42, 0, 0xff, 34), (43, 0, 0xff, 26), (44, 0, 0xff, 18),
   (45, 0, 0xff, 10), (46, 0, 0xff, 2), (47, 6, 0x3, 0)], [(47, 0, 0x3f, 57), (48, 0, 0xff, 49),
   (49, 0, 0xff, 41), (50, 0, 0xff, 33), (51, 0, 0xff, 25), (52, 0, 0xff, 17), (53, 0, 0xff, 9),
   (54, 0, 0xff, 1), (55, 7, 0x1, 0)], [(55, 0, 0x7f, 56), (56, 0, 0xff, 48), (57, 0, 0xff, 40),
   (58, 0, 0xff, 32), (59, 0, 0xff, 24), (60, 0, 0xff, 16), (61, 0, 0xff, 8), (62, 0, 0xff, 0)]]

/-- The functions `unpack_bits_block` chooses from, by their width. -/
def unpackTables : List BlockTable := [
  unpackBits1, unpackBits2, unpackBits3, unpackBits4, unpackBits5, unpackBits6, unpackBits7,
  unpackBits8, unpackBits9, unpackBits10, unpackBits11, unpackBits12, unpackBits13, unpackBits14,
  unpackBits15, unpackBits16, unpackBits17, unpackBits18, unpackBits19, unpackBits20, unpackBits21,
  unpackBits22, unpackBits23, unpackBits24, unpackBits25, unpackBits26, unpackBits27, unpackBits28,
  unpackBits29, unpackBits30, unpackBits31, unpackBits32, unpackBits33, unpackBits34, unpackBits35,
  unpackBits36, unpackBits37, unpackBits38, unpackBits39, unpackBits40, unpackBits41, unpackBits42,
  unpackBits43, unpackBits44, unpackBits45, unpackBits46, unpackBits47, unpackBits48, unpackBits49,
  unpackBits50, unpackBits51, unpackBits52, unpackBits53, unpackBits54, unpackBits55, unpackBits56,
  unpackBits57, unpackBits58, unpackBits59, unpackBits60, unpackBits61, unpackBits62, unpackBits63]

/-! ## The layout of a block -/

/-- The terms that pack a block: a byte takes from each value the bits that fall into it. -/
def packLayout (bits : ℕ) : BlockTable :=
  (List.range bits).map fun j ↦ (List.range 8).filterMap fun i ↦
    let lo := max (i * bits) (8 * j)
    let hi := min (i * bits + bits) (8 * j + 8)
    if lo < hi then some (i, i * bits + bits - hi, 2 ^ (hi - lo) - 1, 8 * j + 8 - hi) else none

/-- The terms that unpack a block: a value takes from each byte the bits that belong to it. -/
def unpackLayout (bits : ℕ) : BlockTable :=
  (List.range 8).map fun i ↦ (List.range bits).filterMap fun j ↦
    let lo := max (i * bits) (8 * j)
    let hi := min (i * bits + bits) (8 * j + 8)
    if lo < hi then some (j, 8 * j + 8 - hi, 2 ^ (hi - lo) - 1, i * bits + bits - hi) else none

/-- Each unrolled packing function has the layout of its width. -/
theorem packTables_eq : packTables = (List.range 63).map fun n ↦ packLayout (n + 1) := by
  decide +kernel

/-- Each unrolled unpacking function has the layout of its width. -/
theorem unpackTables_eq : unpackTables = (List.range 63).map fun n ↦ unpackLayout (n + 1) := by
  decide +kernel

end BitPack

end DataSketches
