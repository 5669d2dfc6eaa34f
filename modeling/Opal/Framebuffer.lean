import Mathlib.Algebra.Group.Nat.Defs
import Opal.Loop
import Mathlib.Data.List.Infix

set_option autoImplicit false

namespace Opal

namespace Fb

def glyphW : Nat := 8

def glyphH : Nat := 16

def fg : UInt32 := 0x00FFFFFF

def bg : UInt32 := 0x00000000

-- The glyphs that FONT sets, each with its sixteen scanlines.
def glyphs : List (Nat × List UInt8) :=
  [
    (0x21, [0x18, 0x18, 0x18, 0x18, 0x18, 0x18, 0x18, 0x00, 0x18, 0x18, 0x00, 0x00, 0x00, 0x00, 0x00, 0x00]),
    (0x22, [0x36, 0x36, 0x36, 0x00, 0x00, 0x00, 0x00, 0x00, 0x00, 0x00, 0x00, 0x00, 0x00, 0x00, 0x00, 0x00]),
    (0x23, [0x36, 0x36, 0x7F, 0x36, 0x36, 0x36, 0x7F, 0x36, 0x36, 0x36, 0x00, 0x00, 0x00, 0x00, 0x00, 0x00]),
    (0x24, [0x0C, 0x3F, 0x68, 0x3E, 0x0B, 0x7E, 0x18, 0x0C, 0x00, 0x00, 0x00, 0x00, 0x00, 0x00, 0x00, 0x00]),
    (0x25, [0x60, 0x62, 0x06, 0x0C, 0x18, 0x30, 0x60, 0x82, 0x02, 0x00, 0x00, 0x00, 0x00, 0x00, 0x00, 0x00]),
    (0x26, [0x30, 0x48, 0x48, 0x30, 0x5A, 0x44, 0x48, 0x34, 0x00, 0x00, 0x00, 0x00, 0x00, 0x00, 0x00, 0x00]),
    (0x27, [0x18, 0x18, 0x18, 0x00, 0x00, 0x00, 0x00, 0x00, 0x00, 0x00, 0x00, 0x00, 0x00, 0x00, 0x00, 0x00]),
    (0x28, [0x0C, 0x18, 0x30, 0x30, 0x30, 0x18, 0x0C, 0x00, 0x00, 0x00, 0x00, 0x00, 0x00, 0x00, 0x00, 0x00]),
    (0x29, [0x30, 0x18, 0x0C, 0x0C, 0x0C, 0x18, 0x30, 0x00, 0x00, 0x00, 0x00, 0x00, 0x00, 0x00, 0x00, 0x00]),
    (0x2A, [0x00, 0x18, 0x7E, 0x3C, 0x18, 0x00, 0x00, 0x00, 0x00, 0x00, 0x00, 0x00, 0x00, 0x00, 0x00, 0x00]),
    (0x2B, [0x00, 0x00, 0x18, 0x18, 0x7E, 0x18, 0x18, 0x00, 0x00, 0x00, 0x00, 0x00, 0x00, 0x00, 0x00, 0x00]),
    (0x2C, [0x00, 0x00, 0x00, 0x00, 0x00, 0x00, 0x18, 0x18, 0x30, 0x00, 0x00, 0x00, 0x00, 0x00, 0x00, 0x00]),
    (0x2D, [0x00, 0x00, 0x00, 0x00, 0x00, 0x7E, 0x00, 0x00, 0x00, 0x00, 0x00, 0x00, 0x00, 0x00, 0x00, 0x00]),
    (0x2E, [0x00, 0x00, 0x00, 0x00, 0x00, 0x00, 0x00, 0x18, 0x18, 0x00, 0x00, 0x00, 0x00, 0x00, 0x00, 0x00]),
    (0x2F, [0x00, 0x02, 0x06, 0x0C, 0x18, 0x30, 0x60, 0xC0, 0x00, 0x00, 0x00, 0x00, 0x00, 0x00, 0x00, 0x00]),
    (0x30, [0x3C, 0x66, 0x6E, 0x76, 0x66, 0x66, 0x3C, 0x00, 0x00, 0x00, 0x00, 0x00, 0x00, 0x00, 0x00, 0x00]),
    (0x31, [0x18, 0x38, 0x18, 0x18, 0x18, 0x18, 0x7E, 0x00, 0x00, 0x00, 0x00, 0x00, 0x00, 0x00, 0x00, 0x00]),
    (0x32, [0x3C, 0x66, 0x06, 0x0C, 0x18, 0x30, 0x7E, 0x00, 0x00, 0x00, 0x00, 0x00, 0x00, 0x00, 0x00, 0x00]),
    (0x33, [0x3C, 0x66, 0x06, 0x1C, 0x06, 0x66, 0x3C, 0x00, 0x00, 0x00, 0x00, 0x00, 0x00, 0x00, 0x00, 0x00]),
    (0x34, [0x06, 0x0E, 0x1E, 0x66, 0x7F, 0x06, 0x06, 0x00, 0x00, 0x00, 0x00, 0x00, 0x00, 0x00, 0x00, 0x00]),
    (0x35, [0x7E, 0x60, 0x7C, 0x06, 0x06, 0x66, 0x3C, 0x00, 0x00, 0x00, 0x00, 0x00, 0x00, 0x00, 0x00, 0x00]),
    (0x36, [0x3C, 0x66, 0x60, 0x7C, 0x66, 0x66, 0x3C, 0x00, 0x00, 0x00, 0x00, 0x00, 0x00, 0x00, 0x00, 0x00]),
    (0x37, [0x7E, 0x06, 0x0C, 0x18, 0x18, 0x18, 0x18, 0x00, 0x00, 0x00, 0x00, 0x00, 0x00, 0x00, 0x00, 0x00]),
    (0x38, [0x3C, 0x66, 0x66, 0x3C, 0x66, 0x66, 0x3C, 0x00, 0x00, 0x00, 0x00, 0x00, 0x00, 0x00, 0x00, 0x00]),
    (0x39, [0x3C, 0x66, 0x66, 0x3E, 0x06, 0x66, 0x3C, 0x00, 0x00, 0x00, 0x00, 0x00, 0x00, 0x00, 0x00, 0x00]),
    (0x3A, [0x00, 0x00, 0x18, 0x18, 0x00, 0x00, 0x18, 0x18, 0x00, 0x00, 0x00, 0x00, 0x00, 0x00, 0x00, 0x00]),
    (0x3B, [0x00, 0x00, 0x18, 0x18, 0x00, 0x00, 0x18, 0x18, 0x30, 0x00, 0x00, 0x00, 0x00, 0x00, 0x00, 0x00]),
    (0x3C, [0x0C, 0x18, 0x30, 0x60, 0x30, 0x18, 0x0C, 0x00, 0x00, 0x00, 0x00, 0x00, 0x00, 0x00, 0x00, 0x00]),
    (0x3D, [0x00, 0x00, 0x7E, 0x00, 0x00, 0x7E, 0x00, 0x00, 0x00, 0x00, 0x00, 0x00, 0x00, 0x00, 0x00, 0x00]),
    (0x3E, [0x30, 0x18, 0x0C, 0x06, 0x0C, 0x18, 0x30, 0x00, 0x00, 0x00, 0x00, 0x00, 0x00, 0x00, 0x00, 0x00]),
    (0x3F, [0x3C, 0x66, 0x06, 0x0C, 0x18, 0x00, 0x18, 0x00, 0x00, 0x00, 0x00, 0x00, 0x00, 0x00, 0x00, 0x00]),
    (0x40, [0x3C, 0x66, 0x6E, 0x6A, 0x6E, 0x60, 0x3C, 0x00, 0x00, 0x00, 0x00, 0x00, 0x00, 0x00, 0x00, 0x00]),
    (0x41, [0x18, 0x3C, 0x66, 0x66, 0x7E, 0x66, 0x66, 0x00, 0x00, 0x00, 0x00, 0x00, 0x00, 0x00, 0x00, 0x00]),
    (0x42, [0x7C, 0x66, 0x66, 0x7C, 0x66, 0x66, 0x7C, 0x00, 0x00, 0x00, 0x00, 0x00, 0x00, 0x00, 0x00, 0x00]),
    (0x43, [0x3C, 0x66, 0x60, 0x60, 0x60, 0x66, 0x3C, 0x00, 0x00, 0x00, 0x00, 0x00, 0x00, 0x00, 0x00, 0x00]),
    (0x44, [0x78, 0x6C, 0x66, 0x66, 0x66, 0x6C, 0x78, 0x00, 0x00, 0x00, 0x00, 0x00, 0x00, 0x00, 0x00, 0x00]),
    (0x45, [0x7E, 0x60, 0x60, 0x7C, 0x60, 0x60, 0x7E, 0x00, 0x00, 0x00, 0x00, 0x00, 0x00, 0x00, 0x00, 0x00]),
    (0x46, [0x7E, 0x60, 0x60, 0x7C, 0x60, 0x60, 0x60, 0x00, 0x00, 0x00, 0x00, 0x00, 0x00, 0x00, 0x00, 0x00]),
    (0x47, [0x3C, 0x66, 0x60, 0x6E, 0x66, 0x66, 0x3C, 0x00, 0x00, 0x00, 0x00, 0x00, 0x00, 0x00, 0x00, 0x00]),
    (0x48, [0x66, 0x66, 0x66, 0x7E, 0x66, 0x66, 0x66, 0x00, 0x00, 0x00, 0x00, 0x00, 0x00, 0x00, 0x00, 0x00]),
    (0x49, [0x7E, 0x18, 0x18, 0x18, 0x18, 0x18, 0x7E, 0x00, 0x00, 0x00, 0x00, 0x00, 0x00, 0x00, 0x00, 0x00]),
    (0x4A, [0x06, 0x06, 0x06, 0x06, 0x06, 0x66, 0x3C, 0x00, 0x00, 0x00, 0x00, 0x00, 0x00, 0x00, 0x00, 0x00]),
    (0x4B, [0x66, 0x6C, 0x78, 0x70, 0x78, 0x6C, 0x66, 0x00, 0x00, 0x00, 0x00, 0x00, 0x00, 0x00, 0x00, 0x00]),
    (0x4C, [0x60, 0x60, 0x60, 0x60, 0x60, 0x60, 0x7E, 0x00, 0x00, 0x00, 0x00, 0x00, 0x00, 0x00, 0x00, 0x00]),
    (0x4D, [0x42, 0x66, 0x7E, 0x7E, 0x66, 0x66, 0x42, 0x00, 0x00, 0x00, 0x00, 0x00, 0x00, 0x00, 0x00, 0x00]),
    (0x4E, [0x66, 0x76, 0x7E, 0x7E, 0x6E, 0x66, 0x66, 0x00, 0x00, 0x00, 0x00, 0x00, 0x00, 0x00, 0x00, 0x00]),
    (0x4F, [0x3C, 0x66, 0x66, 0x66, 0x66, 0x66, 0x3C, 0x00, 0x00, 0x00, 0x00, 0x00, 0x00, 0x00, 0x00, 0x00]),
    (0x50, [0x7C, 0x66, 0x66, 0x7C, 0x60, 0x60, 0x60, 0x00, 0x00, 0x00, 0x00, 0x00, 0x00, 0x00, 0x00, 0x00]),
    (0x51, [0x3C, 0x66, 0x66, 0x66, 0x66, 0x3C, 0x0E, 0x00, 0x00, 0x00, 0x00, 0x00, 0x00, 0x00, 0x00, 0x00]),
    (0x52, [0x7C, 0x66, 0x66, 0x7C, 0x6C, 0x66, 0x66, 0x00, 0x00, 0x00, 0x00, 0x00, 0x00, 0x00, 0x00, 0x00]),
    (0x53, [0x3C, 0x66, 0x60, 0x3C, 0x06, 0x66, 0x3C, 0x00, 0x00, 0x00, 0x00, 0x00, 0x00, 0x00, 0x00, 0x00]),
    (0x54, [0x7E, 0x18, 0x18, 0x18, 0x18, 0x18, 0x18, 0x00, 0x00, 0x00, 0x00, 0x00, 0x00, 0x00, 0x00, 0x00]),
    (0x55, [0x66, 0x66, 0x66, 0x66, 0x66, 0x66, 0x3C, 0x00, 0x00, 0x00, 0x00, 0x00, 0x00, 0x00, 0x00, 0x00]),
    (0x56, [0x66, 0x66, 0x66, 0x66, 0x66, 0x3C, 0x18, 0x00, 0x00, 0x00, 0x00, 0x00, 0x00, 0x00, 0x00, 0x00]),
    (0x57, [0x42, 0x66, 0x66, 0x7E, 0x7E, 0x66, 0x42, 0x00, 0x00, 0x00, 0x00, 0x00, 0x00, 0x00, 0x00, 0x00]),
    (0x58, [0x66, 0x66, 0x3C, 0x18, 0x3C, 0x66, 0x66, 0x00, 0x00, 0x00, 0x00, 0x00, 0x00, 0x00, 0x00, 0x00]),
    (0x59, [0x66, 0x66, 0x66, 0x3C, 0x18, 0x18, 0x18, 0x00, 0x00, 0x00, 0x00, 0x00, 0x00, 0x00, 0x00, 0x00]),
    (0x5A, [0x7E, 0x06, 0x0C, 0x18, 0x30, 0x60, 0x7E, 0x00, 0x00, 0x00, 0x00, 0x00, 0x00, 0x00, 0x00, 0x00]),
    (0x5B, [0x3E, 0x30, 0x30, 0x30, 0x30, 0x30, 0x3E, 0x00, 0x00, 0x00, 0x00, 0x00, 0x00, 0x00, 0x00, 0x00]),
    (0x5C, [0x00, 0x60, 0x30, 0x18, 0x0C, 0x06, 0x02, 0x00, 0x00, 0x00, 0x00, 0x00, 0x00, 0x00, 0x00, 0x00]),
    (0x5D, [0x3E, 0x06, 0x06, 0x06, 0x06, 0x06, 0x3E, 0x00, 0x00, 0x00, 0x00, 0x00, 0x00, 0x00, 0x00, 0x00]),
    (0x5E, [0x08, 0x1C, 0x36, 0x63, 0x00, 0x00, 0x00, 0x00, 0x00, 0x00, 0x00, 0x00, 0x00, 0x00, 0x00, 0x00]),
    (0x5F, [0x00, 0x00, 0x00, 0x00, 0x00, 0x00, 0x00, 0x00, 0x7E, 0x00, 0x00, 0x00, 0x00, 0x00, 0x00, 0x00]),
    (0x60, [0x18, 0x18, 0x0C, 0x00, 0x00, 0x00, 0x00, 0x00, 0x00, 0x00, 0x00, 0x00, 0x00, 0x00, 0x00, 0x00]),
    (0x61, [0x00, 0x00, 0x3C, 0x06, 0x3E, 0x66, 0x3E, 0x00, 0x00, 0x00, 0x00, 0x00, 0x00, 0x00, 0x00, 0x00]),
    (0x62, [0x60, 0x60, 0x7C, 0x66, 0x66, 0x66, 0x7C, 0x00, 0x00, 0x00, 0x00, 0x00, 0x00, 0x00, 0x00, 0x00]),
    (0x63, [0x00, 0x00, 0x3C, 0x66, 0x60, 0x66, 0x3C, 0x00, 0x00, 0x00, 0x00, 0x00, 0x00, 0x00, 0x00, 0x00]),
    (0x64, [0x06, 0x06, 0x3E, 0x66, 0x66, 0x66, 0x3E, 0x00, 0x00, 0x00, 0x00, 0x00, 0x00, 0x00, 0x00, 0x00]),
    (0x65, [0x00, 0x00, 0x3C, 0x66, 0x7E, 0x60, 0x3C, 0x00, 0x00, 0x00, 0x00, 0x00, 0x00, 0x00, 0x00, 0x00]),
    (0x66, [0x0E, 0x18, 0x3E, 0x18, 0x18, 0x18, 0x18, 0x00, 0x00, 0x00, 0x00, 0x00, 0x00, 0x00, 0x00, 0x00]),
    (0x67, [0x00, 0x00, 0x3E, 0x66, 0x66, 0x3E, 0x06, 0x3C, 0x00, 0x00, 0x00, 0x00, 0x00, 0x00, 0x00, 0x00]),
    (0x68, [0x60, 0x60, 0x7C, 0x66, 0x66, 0x66, 0x66, 0x00, 0x00, 0x00, 0x00, 0x00, 0x00, 0x00, 0x00, 0x00]),
    (0x69, [0x18, 0x00, 0x38, 0x18, 0x18, 0x18, 0x3C, 0x00, 0x00, 0x00, 0x00, 0x00, 0x00, 0x00, 0x00, 0x00]),
    (0x6A, [0x0C, 0x00, 0x1C, 0x0C, 0x0C, 0x0C, 0x0C, 0x38, 0x00, 0x00, 0x00, 0x00, 0x00, 0x00, 0x00, 0x00]),
    (0x6B, [0x60, 0x60, 0x6C, 0x78, 0x70, 0x6C, 0x66, 0x00, 0x00, 0x00, 0x00, 0x00, 0x00, 0x00, 0x00, 0x00]),
    (0x6C, [0x38, 0x18, 0x18, 0x18, 0x18, 0x18, 0x3C, 0x00, 0x00, 0x00, 0x00, 0x00, 0x00, 0x00, 0x00, 0x00]),
    (0x6D, [0x00, 0x00, 0x6C, 0x7E, 0x66, 0x66, 0x66, 0x00, 0x00, 0x00, 0x00, 0x00, 0x00, 0x00, 0x00, 0x00]),
    (0x6E, [0x00, 0x00, 0x7C, 0x66, 0x66, 0x66, 0x66, 0x00, 0x00, 0x00, 0x00, 0x00, 0x00, 0x00, 0x00, 0x00]),
    (0x6F, [0x00, 0x00, 0x3C, 0x66, 0x66, 0x66, 0x3C, 0x00, 0x00, 0x00, 0x00, 0x00, 0x00, 0x00, 0x00, 0x00]),
    (0x70, [0x00, 0x00, 0x7C, 0x66, 0x66, 0x7C, 0x60, 0x60, 0x00, 0x00, 0x00, 0x00, 0x00, 0x00, 0x00, 0x00]),
    (0x71, [0x00, 0x00, 0x3E, 0x66, 0x66, 0x3E, 0x06, 0x06, 0x00, 0x00, 0x00, 0x00, 0x00, 0x00, 0x00, 0x00]),
    (0x72, [0x00, 0x00, 0x7C, 0x66, 0x60, 0x60, 0x60, 0x00, 0x00, 0x00, 0x00, 0x00, 0x00, 0x00, 0x00, 0x00]),
    (0x73, [0x00, 0x00, 0x3E, 0x60, 0x3C, 0x06, 0x7C, 0x00, 0x00, 0x00, 0x00, 0x00, 0x00, 0x00, 0x00, 0x00]),
    (0x74, [0x18, 0x18, 0x7E, 0x18, 0x18, 0x18, 0x0E, 0x00, 0x00, 0x00, 0x00, 0x00, 0x00, 0x00, 0x00, 0x00]),
    (0x75, [0x00, 0x00, 0x66, 0x66, 0x66, 0x66, 0x3E, 0x00, 0x00, 0x00, 0x00, 0x00, 0x00, 0x00, 0x00, 0x00]),
    (0x76, [0x00, 0x00, 0x66, 0x66, 0x66, 0x3C, 0x18, 0x00, 0x00, 0x00, 0x00, 0x00, 0x00, 0x00, 0x00, 0x00]),
    (0x77, [0x00, 0x00, 0x42, 0x66, 0x66, 0x7E, 0x42, 0x00, 0x00, 0x00, 0x00, 0x00, 0x00, 0x00, 0x00, 0x00]),
    (0x78, [0x00, 0x00, 0x66, 0x3C, 0x18, 0x3C, 0x66, 0x00, 0x00, 0x00, 0x00, 0x00, 0x00, 0x00, 0x00, 0x00]),
    (0x79, [0x00, 0x00, 0x66, 0x66, 0x66, 0x3E, 0x06, 0x3C, 0x00, 0x00, 0x00, 0x00, 0x00, 0x00, 0x00, 0x00]),
    (0x7A, [0x00, 0x00, 0x7E, 0x0C, 0x18, 0x30, 0x7E, 0x00, 0x00, 0x00, 0x00, 0x00, 0x00, 0x00, 0x00, 0x00]),
    (0x7B, [0x0E, 0x18, 0x18, 0x70, 0x18, 0x18, 0x0E, 0x00, 0x00, 0x00, 0x00, 0x00, 0x00, 0x00, 0x00, 0x00]),
    (0x7C, [0x18, 0x18, 0x18, 0x18, 0x18, 0x18, 0x18, 0x00, 0x00, 0x00, 0x00, 0x00, 0x00, 0x00, 0x00, 0x00]),
    (0x7D, [0x70, 0x18, 0x18, 0x0E, 0x18, 0x18, 0x70, 0x00, 0x00, 0x00, 0x00, 0x00, 0x00, 0x00, 0x00, 0x00]),
    (0x7E, [0x32, 0x7E, 0x4C, 0x00, 0x00, 0x00, 0x00, 0x00, 0x00, 0x00, 0x00, 0x00, 0x00, 0x00, 0x00, 0x00])
  ]

-- Every other glyph of FONT is blank.
def font (ch : UInt8) : List UInt8 :=
  match glyphs.find? fun glyph => glyph.1 = ch.toNat with
  | some glyph => glyph.2
  | none => List.replicate glyphH 0

-- FB_VA and the geometry. init_from_fdt sets them once.
structure Geometry where
  va : Nat
  width : Nat
  height : Nat
  stride : Nat
  deriving DecidableEq, Repr

-- What a console does to the display: a pixel's four bytes at an offset into
-- the buffer, and a glyph drawn at the cursor.
inductive Touch where
  | pixel (off : Nat)
  | glyph (col row : Nat)
  deriving DecidableEq, Repr

-- The cursor, the bytes of the buffer, and all that has been touched so far.
structure Screen where
  col : Nat
  row : Nat
  mem : Nat → UInt8
  touched : List Touch

def byteOf (val : UInt32) (i : Nat) : UInt8 := .ofNat (val.toNat / 256 ^ i)

def store32 (mem : Nat → UInt8) (off : Nat) (val : UInt32) : Nat → UInt8 := fun a =>
  if off ≤ a ∧ a < off + 4 then byteOf val (a - off) else mem a

def load32 (mem : Nat → UInt8) (off : Nat) : UInt32 :=
  .ofNat ((mem off).toNat + (mem (off + 1)).toNat * 256 + (mem (off + 2)).toNat * 256 ^ 2 + (mem (off + 3)).toNat * 256 ^ 3)

namespace Screen

def touch (s : Screen) (what : Touch) : Screen := { s with touched := what :: s.touched }

def write (s : Screen) (off : Nat) (val : UInt32) : Screen :=
  { s with mem := store32 s.mem off val, touched := .pixel off :: s.touched }

def copy (s : Screen) (src dst : Nat) : Screen := (s.touch (.pixel src)).write dst (load32 s.mem src)

end Screen

namespace Geometry

variable (g : Geometry)

def cols : Nat := g.width / glyphW

def rows : Nat := g.height / glyphH

-- Where a pixel lies.
def offset (x y : Nat) : Nat := y * g.stride + x * 4

def putPixel (x y : Nat) (c : UInt32) (s : Screen) : Screen := if g.va = 0 then s else s.write (g.offset x y) c

def glyphFor (ch : UInt8) : List UInt8 := if ch < 128 then font ch else font 0x3F

def lit (bits : UInt8) (col : Nat) : Bool := (bits.toNat >>> (7 - col)) &&& 1 ≠ 0

def blitGlyph (ch : UInt8) (px py : Nat) (s : Screen) : Screen :=
  let glyph := glyphFor ch
  Loop.rangeWhile (fun row => decide (py + row < g.height)) glyphH
    (fun row s =>
      let bits := glyph.getD row 0
      let dy := py + row
      Loop.rangeWhile (fun col => decide (px + col < g.width)) glyphW
        (fun col s => g.putPixel (px + col) dy (if lit bits col then fg else bg) s) s) s

def clear (s : Screen) : Screen :=
  if g.va = 0 then s
  else
    let s := Loop.range 0 g.height (fun y s => Loop.range 0 g.width (fun x s => s.write (g.offset x y) bg) s) s
    { s with col := 0, row := 0 }

-- None where a subtraction underflows.
def scroll (s : Screen) : Option Screen :=
  if g.va = 0 then some s
  else
    let s := Loop.range glyphH g.height
      (fun y s => Loop.range 0 g.width (fun x s => s.copy (g.offset x y) (g.offset x (y - glyphH))) s) s
    if g.height < glyphH then none
    else
      some (Loop.range (g.height - glyphH) g.height
        (fun y s => Loop.range 0 g.width (fun x s => s.write (g.offset x y) bg) s) s)

-- The cursor goes to the start of the next row.
def nextRow (s : Screen) : Option Screen :=
  let newRow := s.row + 1
  let s := { s with col := 0, row := newRow }
  if newRow ≥ g.rows then
    match g.scroll s with
    | none => none
    | some s => if g.rows < 1 then none else some { s with row := g.rows - 1 }
  else some s

def writeChar (ch : UInt8) (s : Screen) : Option Screen :=
  if g.va = 0 then some s
  else if ch = 0x0A then g.nextRow s
  else if ch = 0x0D then some { s with col := 0 }
  else
    match if s.col ≥ g.cols then g.nextRow s else some s with
    | none => none
    | some s =>
        let col := s.col
        let row := s.row
        let px := col * glyphW
        let py := row * glyphH
        let s := g.blitGlyph ch px py (s.touch (.glyph col row))
        some { s with col := col + 1 }

def writeStr : List UInt8 → Screen → Option Screen
  | [], s => some s
  | b :: rest, s =>
      match if b = 0x0A then g.writeChar 0x0D s else some s with
      | none => none
      | some s =>
          match g.writeChar b s with
          | none => none
          | some s => writeStr rest s

-- The bytes a touch covers end inside the buffer, and a glyph's cell is one of
-- the screen's.
def Inside : Touch → Prop
  | .pixel off => off + 4 ≤ g.stride * g.height
  | .glyph col row => col < g.cols ∧ row < g.rows

-- put_pixel, clear and scroll go through read_volatile and write_volatile of a
-- u32, which fault on an address that is not a multiple of four.
def Aligned : Touch → Prop
  | .pixel off => 4 ∣ g.va + off
  | .glyph _ _ => True

-- The console gets through the bytes, and nothing it has touched is outside.
def Contained (bytes : List UInt8) (s : Screen) : Prop :=
  ∃ s', g.writeStr bytes s = some s' ∧ ∀ touch ∈ s'.touched, g.Inside touch

-- Room for one glyph, and scanlines as long as their pixels.
structure Roomy : Prop where
  width : glyphW ≤ g.width
  height : glyphH ≤ g.height
  stride : g.width * 4 ≤ g.stride

end Geometry

def Screen.start (mem : Nat → UInt8) : Screen := ⟨0, 0, mem, []⟩

namespace Geometry

section
variable (g : Geometry) (active : g.va ≠ 0)

theorem put_pixel_active (active : g.va ≠ 0) (x y : Nat) (c : UInt32) (s : Screen) :
    g.putPixel x y c s = s.write (g.offset x y) c := if_neg active

theorem inside_pixel (roomy : g.Roomy) (x y : Nat) (left : x < g.width) (above : y < g.height) :
    g.Inside (.pixel (g.offset x y)) := by
  have stride := roomy.stride
  have line : (y + 1) * g.stride ≤ g.height * g.stride := Nat.mul_le_mul_right g.stride above
  have pixel : x * 4 + 4 ≤ g.stride := by omega
  change y * g.stride + x * 4 + 4 ≤ g.stride * g.height
  rw [Nat.add_mul, Nat.one_mul, Nat.mul_comm g.height] at line
  omega

theorem blit_eq (active : g.va ≠ 0) (ch : UInt8) (px py : Nat) (s : Screen) :
    g.blitGlyph ch px py s =
      Loop.range 0 (min glyphH (g.height - py))
        (fun row s =>
          Loop.range 0 (min glyphW (g.width - px))
            (fun col s => s.write (g.offset (px + col) (py + row)) (if lit ((glyphFor ch).getD row 0) col then fg else bg)) s)
        s := by
  unfold blitGlyph
  simp only [Loop.range_while_lt, put_pixel_active g active]

theorem scroll_eq (active : g.va ≠ 0) (tall : glyphH ≤ g.height) (s : Screen) :
    g.scroll s = some
      (Loop.range (g.height - glyphH) g.height
        (fun y s => Loop.range 0 g.width (fun x s => s.write (g.offset x y) bg) s)
        (Loop.range glyphH g.height
          (fun y s => Loop.range 0 g.width (fun x s => s.copy (g.offset x y) (g.offset x (y - glyphH))) s) s)) := by
  rw [scroll, if_neg active]
  dsimp only
  rw [if_neg (Nat.not_lt.mpr tall)]

-- What the loops leave as it was: the cursor.
structure SameCursor (s s' : Screen) : Prop where
  col : s'.col = s.col
  row : s'.row = s.row

theorem SameCursor.refl (s : Screen) : SameCursor s s := ⟨rfl, rfl⟩

theorem blit_cursor (active : g.va ≠ 0) (ch : UInt8) (px py : Nat) (s : Screen) : SameCursor s (g.blitGlyph ch px py s) := by
  rw [blit_eq g active]
  refine Loop.range_keeps _ (SameCursor s) 0 _ (fun row s' _ _ same => ?_) s (.refl s)
  refine Loop.range_keeps _ (SameCursor s) 0 _ (fun col s'' _ _ same => ?_) s' same
  exact ⟨same.col, same.row⟩

theorem scroll_cursor (active : g.va ≠ 0) (s s' : Screen) (scrolled : g.scroll s = some s') : SameCursor s s' := by
  by_cases tall : glyphH ≤ g.height
  · rw [scroll_eq g active tall] at scrolled
    rw [← Option.some.inj scrolled]
    refine Loop.range_keeps _ (SameCursor s) _ _ (fun y s' _ _ same => ?_) _ ?_
    · refine Loop.range_keeps _ (SameCursor s) 0 _ (fun x s'' _ _ same => ?_) s' same
      exact ⟨same.col, same.row⟩
    · refine Loop.range_keeps _ (SameCursor s) _ _ (fun y s' _ _ same => ?_) s (.refl s)
      refine Loop.range_keeps _ (SameCursor s) 0 _ (fun x s'' _ _ same => ?_) s' same
      exact ⟨same.col, same.row⟩
  · rw [scroll, if_neg active] at scrolled
    dsimp only at scrolled
    rw [if_pos (Nat.lt_of_not_le tall)] at scrolled
    cases scrolled

-- Every touch so far is as P says.
def Touches (P : Touch → Prop) (s : Screen) : Prop := ∀ touch ∈ s.touched, P touch

theorem touches_write (P : Touch → Prop) (s : Screen) (off : Nat) (val : UInt32) (before : Touches P s)
    (here : P (.pixel off)) : Touches P (s.write off val) := by
  intro touch member
  rcases List.mem_cons.mp member with rfl | earlier
  · exact here
  · exact before touch earlier

theorem blit_touches (P : Touch → Prop) (active : g.va ≠ 0) (ch : UInt8) (px py : Nat) (s : Screen) (before : Touches P s)
    (pixels : ∀ x y, x < g.width → y < g.height → P (.pixel (g.offset x y))) : Touches P (g.blitGlyph ch px py s) := by
  rw [blit_eq g active]
  refine Loop.range_keeps _ (Touches P) 0 _ (fun row s' _ low kept => ?_) s before
  refine Loop.range_keeps _ (Touches P) 0 _ (fun col s'' _ left kept => ?_) s' kept
  exact touches_write P s'' _ _ kept (pixels _ _ (by omega) (by omega))

theorem scroll_touches (P : Touch → Prop) (active : g.va ≠ 0) (s s' : Screen) (tall : glyphH ≤ g.height)
    (scrolled : g.scroll s = some s') (before : Touches P s)
    (pixels : ∀ x y, x < g.width → y < g.height → P (.pixel (g.offset x y))) : Touches P s' := by
  rw [scroll_eq g active tall] at scrolled
  rw [← Option.some.inj scrolled]
  refine Loop.range_keeps _ (Touches P) _ _ (fun y s' _ low kept => ?_) _ ?_
  · exact Loop.range_keeps _ (Touches P) 0 _ (fun x s'' _ left kept => touches_write P s'' _ _ kept (pixels x y left low)) s' kept
  · refine Loop.range_keeps _ (Touches P) _ _ (fun y s' above low kept => ?_) s before
    refine Loop.range_keeps _ (Touches P) 0 _ (fun x s'' _ left kept => ?_) s' kept
    refine touches_write P _ _ _ (fun touch member => ?_) (pixels x (y - glyphH) left (by omega))
    rcases List.mem_cons.mp member with rfl | earlier
    · exact pixels x y left low
    · exact kept touch earlier

-- A cursor on the screen, or behind the last column of a row.
structure Settled (P : Touch → Prop) (s : Screen) : Prop where
  row : s.row < g.rows
  col : s.col ≤ g.cols
  touched : Touches P s

-- The pixels and the cells of the display are as P says.
structure Covers (P : Touch → Prop) : Prop where
  pixels : ∀ x y, x < g.width → y < g.height → P (.pixel (g.offset x y))
  cells : ∀ col row, col < g.cols → row < g.rows → P (.glyph col row)

theorem Roomy.cells (roomy : g.Roomy) : 0 < g.cols ∧ 0 < g.rows :=
  ⟨Nat.div_pos roomy.width (by decide), Nat.div_pos roomy.height (by decide)⟩

theorem next_row_cases (active : g.va ≠ 0) (tall : glyphH ≤ g.height) (s : Screen) :
    (s.row + 1 < g.rows ∧ g.nextRow s = some { s with col := 0, row := s.row + 1 }) ∨
      (g.rows ≤ s.row + 1 ∧ ∃ s', g.scroll { s with col := 0, row := s.row + 1 } = some s' ∧
        g.nextRow s = some { s' with row := g.rows - 1 }) := by
  have some_ : 0 < g.rows := Nat.div_pos tall (by decide)
  unfold nextRow
  dsimp only
  by_cases last : s.row + 1 ≥ g.rows
  · refine .inr ⟨last, _, scroll_eq g active tall _, ?_⟩
    rw [if_pos last, scroll_eq g active tall]
    dsimp only
    rw [if_neg (by omega)]
  · exact .inl ⟨by omega, if_neg last⟩

theorem next_row_settled (P : Touch → Prop) (covers : g.Covers P) (roomy : g.Roomy) (active : g.va ≠ 0) (s : Screen)
    (settled : g.Settled P s) : ∃ s', g.nextRow s = some s' ∧ g.Settled P s' ∧ s'.col = 0 := by
  have cells := roomy.cells
  rcases next_row_cases g active roomy.height s with ⟨room, moved⟩ | ⟨_, scrolled, scrolls, moved⟩
  · exact ⟨_, moved, ⟨room, Nat.zero_le _, settled.touched⟩, rfl⟩
  · have cursor := scroll_cursor g active _ scrolled scrolls
    refine ⟨_, moved, ⟨Nat.sub_lt cells.2 Nat.one_pos, ?_, ?_⟩, cursor.col⟩
    · rw [cursor.col]
      exact Nat.zero_le _
    · exact scroll_touches g P active _ scrolled roomy.height scrolls settled.touched covers.pixels

theorem write_char_settled (P : Touch → Prop) (covers : g.Covers P) (roomy : g.Roomy) (active : g.va ≠ 0) (ch : UInt8)
    (s : Screen) (settled : g.Settled P s) : ∃ s', g.writeChar ch s = some s' ∧ g.Settled P s' := by
  unfold writeChar
  rw [if_neg active]
  by_cases feed : ch = 0x0A
  · rw [if_pos feed]
    obtain ⟨s', moved, kept, _⟩ := next_row_settled g P covers roomy active s settled
    exact ⟨s', moved, kept⟩
  rw [if_neg feed]
  by_cases home : ch = 0x0D
  · rw [if_pos home]
    exact ⟨_, rfl, settled.row, Nat.zero_le _, settled.touched⟩
  rw [if_neg home]
  -- The glyph is drawn at a cursor that is on the screen.
  have draws : ∀ s, g.Settled P s → s.col < g.cols → g.Settled P
      { g.blitGlyph ch (s.col * glyphW) (s.row * glyphH) (s.touch (.glyph s.col s.row)) with col := s.col + 1 } := by
    intro s settled left
    have cursor := blit_cursor g active ch (s.col * glyphW) (s.row * glyphH) (s.touch (.glyph s.col s.row))
    refine ⟨?_, left, ?_⟩
    · rw [cursor.row]
      exact settled.row
    · refine blit_touches g P active ch _ _ _ (fun touch member => ?_) covers.pixels
      rcases List.mem_cons.mp member with rfl | earlier
      · exact covers.cells _ _ left settled.row
      · exact settled.touched touch earlier
  by_cases full : s.col ≥ g.cols
  · obtain ⟨s', moved, kept, first⟩ := next_row_settled g P covers roomy active s settled
    rw [if_pos full, moved]
    exact ⟨_, rfl, draws s' kept (by rw [first]; exact roomy.cells.1)⟩
  · rw [if_neg full]
    exact ⟨_, rfl, draws s settled (Nat.lt_of_not_ge full)⟩

theorem write_str_settled (P : Touch → Prop) (covers : g.Covers P) (roomy : g.Roomy) (active : g.va ≠ 0)
    (bytes : List UInt8) (s : Screen) (settled : g.Settled P s) : ∃ s', g.writeStr bytes s = some s' ∧ g.Settled P s' := by
  induction bytes generalizing s with
  | nil => exact ⟨s, rfl, settled⟩
  | cons b rest ih =>
      have home : ∃ s', (if b = 0x0A then g.writeChar 0x0D s else some s) = some s' ∧ g.Settled P s' := by
        split_ifs
        · exact write_char_settled g P covers roomy active 0x0D s settled
        · exact ⟨s, rfl, settled⟩
      obtain ⟨s1, first, settled1⟩ := home
      obtain ⟨s2, second, settled2⟩ := write_char_settled g P covers roomy active b s1 settled1
      obtain ⟨s3, last, settled3⟩ := ih s2 settled2
      refine ⟨s3, ?_, settled3⟩
      rw [writeStr, first]
      dsimp only
      rw [second]
      exact last

theorem blit_keeps (active : g.va ≠ 0) (ch : UInt8) (px py : Nat) (s : Screen) (touch : Touch) (before : touch ∈ s.touched) :
    touch ∈ (g.blitGlyph ch px py s).touched := by
  rw [blit_eq g active]
  refine Loop.range_keeps _ (fun s' => touch ∈ s'.touched) 0 _ (fun row s' _ _ kept => ?_) s before
  refine Loop.range_keeps _ (fun s'' => touch ∈ s''.touched) 0 _ (fun col s'' _ _ kept => ?_) s' kept
  exact List.mem_cons_of_mem _ kept

theorem scroll_last (active : g.va ≠ 0) (wide : 0 < g.width) (tall : glyphH ≤ g.height) (s s' : Screen)
    (scrolled : g.scroll s = some s') : .pixel (g.offset (g.width - 1) (g.height - 1)) ∈ s'.touched := by
  rw [scroll_eq g active tall] at scrolled
  have lines : g.height = (g.height - 1) + 1 := by change 16 ≤ g.height at tall; omega
  have columns : g.width = (g.width - 1) + 1 := by omega
  have line : ∀ s : Screen, Touch.pixel (g.offset (g.width - 1) (g.height - 1)) ∈
      (Loop.range 0 g.width (fun x s => s.write (g.offset x (g.height - 1)) bg) s).touched := by
    intro s
    generalize last : g.width - 1 = w at columns
    rw [columns, Loop.range_succ _ 0 w (Nat.zero_le _)]
    exact List.mem_cons_self
  rw [← Option.some.inj scrolled]
  generalize last : g.height - 1 = h at lines line
  rw [lines, Loop.range_succ _ _ h (Nat.le_of_lt_succ (Nat.sub_lt (Nat.succ_pos h) (by decide)))]
  exact line _

-- What a printed byte draws is drawn where the cursor is, or at the start of
-- the next row.
theorem write_char_draws (active : g.va ≠ 0) (s s' : Screen) (written : g.writeChar 0x41 s = some s') :
    ∃ col row, .glyph col row ∈ s'.touched := by
  unfold writeChar at written
  rw [if_neg active, if_neg (by decide), if_neg (by decide)] at written
  cases moved : if s.col ≥ g.cols then g.nextRow s else some s with
  | none =>
      rw [moved] at written
      cases written
  | some s1 =>
      rw [moved] at written
      rw [← Option.some.inj written]
      exact ⟨s1.col, s1.row, blit_keeps g active 0x41 _ _ _ _ List.mem_cons_self⟩

theorem write_str_newline (active : g.va ≠ 0) (rest : List UInt8) (s : Screen) :
    g.writeStr (0x0A :: rest) s = (g.nextRow { s with col := 0 }).bind (g.writeStr rest) := by
  have home : g.writeChar 0x0D s = some { s with col := 0 } := by
    rw [writeChar, if_neg active, if_neg (by decide), if_pos rfl]
  have feed : g.writeChar 0x0A { s with col := 0 } = g.nextRow { s with col := 0 } := by
    rw [writeChar, if_neg active, if_pos rfl]
  rw [writeStr, if_pos rfl, home]
  dsimp only
  rw [feed]
  cases g.nextRow { s with col := 0 } <;> rfl

theorem newlines_scroll (active : g.va ≠ 0) (wide : 0 < g.width) (tall : glyphH ≤ g.height) (n : Nat) (s s' : Screen)
    (left : s.row + n + 1 = g.rows) (written : g.writeStr (List.replicate (n + 1) 0x0A) s = some s') :
    .pixel (g.offset (g.width - 1) (g.height - 1)) ∈ s'.touched := by
  induction n generalizing s with
  | zero =>
      rw [List.replicate_succ, write_str_newline g active] at written
      rcases next_row_cases g active tall { s with col := 0 } with ⟨room, _⟩ | ⟨_, scrolled, scrolls, moved⟩
      · exact absurd room (by change ¬ s.row + 1 < g.rows; omega)
      · rw [moved] at written
        rw [← Option.some.inj written]
        exact scroll_last g active wide tall _ scrolled scrolls
  | succ n ih =>
      rw [List.replicate_succ, write_str_newline g active] at written
      rcases next_row_cases g active tall { s with col := 0 } with ⟨_, moved⟩ | ⟨full, _⟩
      · rw [moved] at written
        exact ih _ (by change s.row + 1 + n + 1 = g.rows; omega) written
      · exact absurd full (by change ¬ g.rows ≤ s.row + 1; omega)

theorem covers_inside (roomy : g.Roomy) : g.Covers g.Inside := ⟨inside_pixel g roomy, fun _ _ left above => ⟨left, above⟩⟩

theorem start_settled (roomy : g.Roomy) (mem : Nat → UInt8) : g.Settled g.Inside (Screen.start mem) :=
  ⟨roomy.cells.2, Nat.zero_le _, fun _ member => absurd member (List.not_mem_nil)⟩

theorem contained_roomy (active : g.va ≠ 0) (mem : Nat → UInt8) (contained : ∀ bytes, g.Contained bytes (Screen.start mem)) :
    g.Roomy := by
  have cells : 0 < g.cols ∧ 0 < g.rows := by
    obtain ⟨s, written, inside⟩ := contained [0x41]
    rw [writeStr, if_neg (by decide)] at written
    dsimp only at written
    cases drawn : g.writeChar 0x41 (Screen.start mem) with
    | none =>
        rw [drawn] at written
        cases written
    | some s1 =>
        rw [drawn] at written
        obtain ⟨col, row, member⟩ := write_char_draws g active _ s1 drawn
        obtain rfl : s1 = s := Option.some.inj written
        obtain ⟨left, above⟩ := inside _ member
        exact ⟨Nat.zero_lt_of_lt left, Nat.zero_lt_of_lt above⟩
  have wide : glyphW ≤ g.width := (Nat.div_pos_iff.mp cells.1).2
  have tall : glyphH ≤ g.height := (Nat.div_pos_iff.mp cells.2).2
  refine ⟨wide, tall, ?_⟩
  obtain ⟨s, written, inside⟩ := contained (List.replicate (g.rows - 1 + 1) 0x0A)
  have some_ : 0 < g.width := Nat.lt_of_lt_of_le (by decide) wide
  have last := inside _ (newlines_scroll g active some_ tall (g.rows - 1) (Screen.start mem) s
    (by change 0 + (g.rows - 1) + 1 = g.rows; omega) written)
  change (g.height - 1) * g.stride + (g.width - 1) * 4 + 4 ≤ g.stride * g.height at last
  have split : g.stride * g.height = (g.height - 1) * g.stride + g.stride := by
    rw [Nat.mul_comm, ← Nat.succ_mul]
    congr 1
    change 16 ≤ g.height at tall
    omega
  omega

end

-- The console stays inside the buffer exactly on the geometries that have room
-- for a glyph and for their own scanlines.
theorem writes_contained (g : Geometry) (active : g.va ≠ 0) (mem : Nat → UInt8) :
    (∀ bytes, g.Contained bytes (Screen.start mem)) ↔ g.Roomy := by
  constructor
  · exact contained_roomy g active mem
  · intro roomy bytes
    obtain ⟨s, written, settled⟩ := write_str_settled g g.Inside (covers_inside g roomy) roomy active bytes _ (start_settled g roomy mem)
    exact ⟨s, written, settled.touched⟩

theorem writes_contained_vga :
    (∀ bytes, Contained ⟨0x1000, 640, 480, 2560⟩ bytes (Screen.start fun _ => 0)) ↔ Roomy ⟨0x1000, 640, 480, 2560⟩ :=
  writes_contained ⟨0x1000, 640, 480, 2560⟩ (by decide) fun _ => 0

-- A display half a glyph high: the first newline scrolls it.
theorem low_display_underflows :
    ¬ ∀ g : Geometry, g.va ≠ 0 → g.width ≠ 0 → g.height ≠ 0 → g.stride ≠ 0 →
      ∀ bytes mem, g.Contained bytes (Screen.start mem) := by
  intro contained
  obtain ⟨_, written, _⟩ := contained ⟨0x1000, 640, 8, 2560⟩ (by decide) (by decide) (by decide) (by decide) [0x0A] fun _ => 0
  cases written

end Geometry

end Fb

end Opal
