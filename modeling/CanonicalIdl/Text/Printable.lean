import CanonicalIdl.Text.CodeRange

/-!
# Characters that print as themselves

A character prints as itself in a quotation unless it is a control, a format
character, a separator other than the space, unassigned, a mark that attaches to the
character before it, or a filler that shows nothing.  Such a mark has the Unicode
property Grapheme_Extend and such a filler Default_Ignorable_Code_Point.  The two
halfwidth katakana sound marks are Grapheme_Extend and yet take a place of their own
in the line, so they print as themselves.
-/

namespace CanonicalIdl.Text

/-- The codes above 127 that print as themselves. -/
def printableRanges : List CodeRange :=
  [
    ⟨161, 172, 1⟩, ⟨174, 767, 1⟩, ⟨880, 887, 1⟩, ⟨890, 895, 1⟩, ⟨900, 906, 1⟩, ⟨908, 908, 1⟩,
    ⟨910, 929, 1⟩, ⟨931, 1154, 1⟩, ⟨1162, 1327, 1⟩, ⟨1329, 1366, 1⟩, ⟨1369, 1418, 1⟩, ⟨1421, 1423, 1⟩,
    ⟨1470, 1470, 1⟩, ⟨1472, 1472, 1⟩, ⟨1475, 1475, 1⟩, ⟨1478, 1478, 1⟩, ⟨1488, 1514, 1⟩, ⟨1519, 1524, 1⟩,
    ⟨1542, 1551, 1⟩, ⟨1563, 1563, 1⟩, ⟨1565, 1610, 1⟩, ⟨1632, 1647, 1⟩, ⟨1649, 1749, 1⟩, ⟨1758, 1758, 1⟩,
    ⟨1765, 1766, 1⟩, ⟨1769, 1769, 1⟩, ⟨1774, 1805, 1⟩, ⟨1808, 1808, 1⟩, ⟨1810, 1839, 1⟩, ⟨1869, 1957, 1⟩,
    ⟨1969, 1969, 1⟩, ⟨1984, 2026, 1⟩, ⟨2036, 2042, 1⟩, ⟨2046, 2069, 1⟩, ⟨2074, 2074, 1⟩, ⟨2084, 2084, 1⟩,
    ⟨2088, 2088, 1⟩, ⟨2096, 2110, 1⟩, ⟨2112, 2136, 1⟩, ⟨2142, 2142, 1⟩, ⟨2144, 2154, 1⟩, ⟨2160, 2191, 1⟩,
    ⟨2208, 2249, 1⟩, ⟨2307, 2361, 1⟩, ⟨2363, 2363, 1⟩, ⟨2365, 2368, 1⟩, ⟨2377, 2380, 1⟩, ⟨2382, 2384, 1⟩,
    ⟨2392, 2401, 1⟩, ⟨2404, 2432, 1⟩, ⟨2434, 2435, 1⟩, ⟨2437, 2444, 1⟩, ⟨2447, 2448, 1⟩, ⟨2451, 2472, 1⟩,
    ⟨2474, 2480, 1⟩, ⟨2482, 2482, 1⟩, ⟨2486, 2489, 1⟩, ⟨2493, 2493, 1⟩, ⟨2495, 2496, 1⟩, ⟨2503, 2504, 1⟩,
    ⟨2507, 2508, 1⟩, ⟨2510, 2510, 1⟩, ⟨2524, 2525, 1⟩, ⟨2527, 2529, 1⟩, ⟨2534, 2557, 1⟩, ⟨2563, 2563, 1⟩,
    ⟨2565, 2570, 1⟩, ⟨2575, 2576, 1⟩, ⟨2579, 2600, 1⟩, ⟨2602, 2608, 1⟩, ⟨2610, 2611, 1⟩, ⟨2613, 2614, 1⟩,
    ⟨2616, 2617, 1⟩, ⟨2622, 2624, 1⟩, ⟨2649, 2652, 1⟩, ⟨2654, 2654, 1⟩, ⟨2662, 2671, 1⟩, ⟨2674, 2676, 1⟩,
    ⟨2678, 2678, 1⟩, ⟨2691, 2691, 1⟩, ⟨2693, 2701, 1⟩, ⟨2703, 2705, 1⟩, ⟨2707, 2728, 1⟩, ⟨2730, 2736, 1⟩,
    ⟨2738, 2739, 1⟩, ⟨2741, 2745, 1⟩, ⟨2749, 2752, 1⟩, ⟨2761, 2761, 1⟩, ⟨2763, 2764, 1⟩, ⟨2768, 2768, 1⟩,
    ⟨2784, 2785, 1⟩, ⟨2790, 2801, 1⟩, ⟨2809, 2809, 1⟩, ⟨2818, 2819, 1⟩, ⟨2821, 2828, 1⟩, ⟨2831, 2832, 1⟩,
    ⟨2835, 2856, 1⟩, ⟨2858, 2864, 1⟩, ⟨2866, 2867, 1⟩, ⟨2869, 2873, 1⟩, ⟨2877, 2877, 1⟩, ⟨2880, 2880, 1⟩,
    ⟨2887, 2888, 1⟩, ⟨2891, 2892, 1⟩, ⟨2908, 2909, 1⟩, ⟨2911, 2913, 1⟩, ⟨2918, 2935, 1⟩, ⟨2947, 2947, 1⟩,
    ⟨2949, 2954, 1⟩, ⟨2958, 2960, 1⟩, ⟨2962, 2965, 1⟩, ⟨2969, 2970, 1⟩, ⟨2972, 2972, 1⟩, ⟨2974, 2975, 1⟩,
    ⟨2979, 2980, 1⟩, ⟨2984, 2986, 1⟩, ⟨2990, 3001, 1⟩, ⟨3007, 3007, 1⟩, ⟨3009, 3010, 1⟩, ⟨3014, 3016, 1⟩,
    ⟨3018, 3020, 1⟩, ⟨3024, 3024, 1⟩, ⟨3046, 3066, 1⟩, ⟨3073, 3075, 1⟩, ⟨3077, 3084, 1⟩, ⟨3086, 3088, 1⟩,
    ⟨3090, 3112, 1⟩, ⟨3114, 3129, 1⟩, ⟨3133, 3133, 1⟩, ⟨3137, 3140, 1⟩, ⟨3160, 3162, 1⟩, ⟨3164, 3165, 1⟩,
    ⟨3168, 3169, 1⟩, ⟨3174, 3183, 1⟩, ⟨3191, 3200, 1⟩, ⟨3202, 3212, 1⟩, ⟨3214, 3216, 1⟩, ⟨3218, 3240, 1⟩,
    ⟨3242, 3251, 1⟩, ⟨3253, 3257, 1⟩, ⟨3261, 3262, 1⟩, ⟨3265, 3265, 1⟩, ⟨3267, 3268, 1⟩, ⟨3292, 3294, 1⟩,
    ⟨3296, 3297, 1⟩, ⟨3302, 3311, 1⟩, ⟨3313, 3315, 1⟩, ⟨3330, 3340, 1⟩, ⟨3342, 3344, 1⟩, ⟨3346, 3386, 1⟩,
    ⟨3389, 3389, 1⟩, ⟨3391, 3392, 1⟩, ⟨3398, 3400, 1⟩, ⟨3402, 3404, 1⟩, ⟨3406, 3407, 1⟩, ⟨3412, 3414, 1⟩,
    ⟨3416, 3425, 1⟩, ⟨3430, 3455, 1⟩, ⟨3458, 3459, 1⟩, ⟨3461, 3478, 1⟩, ⟨3482, 3505, 1⟩, ⟨3507, 3515, 1⟩,
    ⟨3517, 3517, 1⟩, ⟨3520, 3526, 1⟩, ⟨3536, 3537, 1⟩, ⟨3544, 3550, 1⟩, ⟨3558, 3567, 1⟩, ⟨3570, 3572, 1⟩,
    ⟨3585, 3632, 1⟩, ⟨3634, 3635, 1⟩, ⟨3647, 3654, 1⟩, ⟨3663, 3675, 1⟩, ⟨3713, 3714, 1⟩, ⟨3716, 3716, 1⟩,
    ⟨3718, 3722, 1⟩, ⟨3724, 3747, 1⟩, ⟨3749, 3749, 1⟩, ⟨3751, 3760, 1⟩, ⟨3762, 3763, 1⟩, ⟨3773, 3773, 1⟩,
    ⟨3776, 3780, 1⟩, ⟨3782, 3782, 1⟩, ⟨3792, 3801, 1⟩, ⟨3804, 3807, 1⟩, ⟨3840, 3863, 1⟩, ⟨3866, 3892, 1⟩,
    ⟨3894, 3894, 1⟩, ⟨3896, 3896, 1⟩, ⟨3898, 3911, 1⟩, ⟨3913, 3948, 1⟩, ⟨3967, 3967, 1⟩, ⟨3973, 3973, 1⟩,
    ⟨3976, 3980, 1⟩, ⟨4030, 4037, 1⟩, ⟨4039, 4044, 1⟩, ⟨4046, 4058, 1⟩, ⟨4096, 4140, 1⟩, ⟨4145, 4145, 1⟩,
    ⟨4152, 4152, 1⟩, ⟨4155, 4156, 1⟩, ⟨4159, 4183, 1⟩, ⟨4186, 4189, 1⟩, ⟨4193, 4208, 1⟩, ⟨4213, 4225, 1⟩,
    ⟨4227, 4228, 1⟩, ⟨4231, 4236, 1⟩, ⟨4238, 4252, 1⟩, ⟨4254, 4293, 1⟩, ⟨4295, 4295, 1⟩, ⟨4301, 4301, 1⟩,
    ⟨4304, 4446, 1⟩, ⟨4449, 4680, 1⟩, ⟨4682, 4685, 1⟩, ⟨4688, 4694, 1⟩, ⟨4696, 4696, 1⟩, ⟨4698, 4701, 1⟩,
    ⟨4704, 4744, 1⟩, ⟨4746, 4749, 1⟩, ⟨4752, 4784, 1⟩, ⟨4786, 4789, 1⟩, ⟨4792, 4798, 1⟩, ⟨4800, 4800, 1⟩,
    ⟨4802, 4805, 1⟩, ⟨4808, 4822, 1⟩, ⟨4824, 4880, 1⟩, ⟨4882, 4885, 1⟩, ⟨4888, 4954, 1⟩, ⟨4960, 4988, 1⟩,
    ⟨4992, 5017, 1⟩, ⟨5024, 5109, 1⟩, ⟨5112, 5117, 1⟩, ⟨5120, 5759, 1⟩, ⟨5761, 5788, 1⟩, ⟨5792, 5880, 1⟩,
    ⟨5888, 5905, 1⟩, ⟨5919, 5937, 1⟩, ⟨5941, 5942, 1⟩, ⟨5952, 5969, 1⟩, ⟨5984, 5996, 1⟩, ⟨5998, 6000, 1⟩,
    ⟨6016, 6067, 1⟩, ⟨6070, 6070, 1⟩, ⟨6078, 6085, 1⟩, ⟨6087, 6088, 1⟩, ⟨6100, 6108, 1⟩, ⟨6112, 6121, 1⟩,
    ⟨6128, 6137, 1⟩, ⟨6144, 6154, 1⟩, ⟨6160, 6169, 1⟩, ⟨6176, 6264, 1⟩, ⟨6272, 6276, 1⟩, ⟨6279, 6312, 1⟩,
    ⟨6314, 6314, 1⟩, ⟨6320, 6389, 1⟩, ⟨6400, 6430, 1⟩, ⟨6435, 6438, 1⟩, ⟨6441, 6443, 1⟩, ⟨6448, 6449, 1⟩,
    ⟨6451, 6456, 1⟩, ⟨6464, 6464, 1⟩, ⟨6468, 6509, 1⟩, ⟨6512, 6516, 1⟩, ⟨6528, 6571, 1⟩, ⟨6576, 6601, 1⟩,
    ⟨6608, 6618, 1⟩, ⟨6622, 6678, 1⟩, ⟨6681, 6682, 1⟩, ⟨6686, 6741, 1⟩, ⟨6743, 6743, 1⟩, ⟨6753, 6753, 1⟩,
    ⟨6755, 6756, 1⟩, ⟨6765, 6770, 1⟩, ⟨6784, 6793, 1⟩, ⟨6800, 6809, 1⟩, ⟨6816, 6829, 1⟩, ⟨6916, 6963, 1⟩,
    ⟨6974, 6977, 1⟩, ⟨6981, 6988, 1⟩, ⟨6990, 7018, 1⟩, ⟨7028, 7039, 1⟩, ⟨7042, 7073, 1⟩, ⟨7078, 7079, 1⟩,
    ⟨7086, 7141, 1⟩, ⟨7143, 7143, 1⟩, ⟨7146, 7148, 1⟩, ⟨7150, 7150, 1⟩, ⟨7164, 7211, 1⟩, ⟨7220, 7221, 1⟩,
    ⟨7227, 7241, 1⟩, ⟨7245, 7306, 1⟩, ⟨7312, 7354, 1⟩, ⟨7357, 7367, 1⟩, ⟨7379, 7379, 1⟩, ⟨7393, 7393, 1⟩,
    ⟨7401, 7404, 1⟩, ⟨7406, 7411, 1⟩, ⟨7413, 7415, 1⟩, ⟨7418, 7418, 1⟩, ⟨7424, 7615, 1⟩, ⟨7680, 7957, 1⟩,
    ⟨7960, 7965, 1⟩, ⟨7968, 8005, 1⟩, ⟨8008, 8013, 1⟩, ⟨8016, 8023, 1⟩, ⟨8025, 8025, 1⟩, ⟨8027, 8027, 1⟩,
    ⟨8029, 8029, 1⟩, ⟨8031, 8061, 1⟩, ⟨8064, 8116, 1⟩, ⟨8118, 8132, 1⟩, ⟨8134, 8147, 1⟩, ⟨8150, 8155, 1⟩,
    ⟨8157, 8175, 1⟩, ⟨8178, 8180, 1⟩, ⟨8182, 8190, 1⟩, ⟨8208, 8231, 1⟩, ⟨8240, 8286, 1⟩, ⟨8304, 8305, 1⟩,
    ⟨8308, 8334, 1⟩, ⟨8336, 8348, 1⟩, ⟨8352, 8385, 1⟩, ⟨8448, 8587, 1⟩, ⟨8592, 9257, 1⟩, ⟨9280, 9290, 1⟩,
    ⟨9312, 11123, 1⟩, ⟨11126, 11502, 1⟩, ⟨11506, 11507, 1⟩, ⟨11513, 11557, 1⟩, ⟨11559, 11559, 1⟩, ⟨11565, 11565, 1⟩,
    ⟨11568, 11623, 1⟩, ⟨11631, 11632, 1⟩, ⟨11648, 11670, 1⟩, ⟨11680, 11686, 1⟩, ⟨11688, 11694, 1⟩, ⟨11696, 11702, 1⟩,
    ⟨11704, 11710, 1⟩, ⟨11712, 11718, 1⟩, ⟨11720, 11726, 1⟩, ⟨11728, 11734, 1⟩, ⟨11736, 11742, 1⟩, ⟨11776, 11869, 1⟩,
    ⟨11904, 11929, 1⟩, ⟨11931, 12019, 1⟩, ⟨12032, 12245, 1⟩, ⟨12272, 12287, 1⟩, ⟨12289, 12329, 1⟩, ⟨12336, 12351, 1⟩,
    ⟨12353, 12438, 1⟩, ⟨12443, 12543, 1⟩, ⟨12549, 12591, 1⟩, ⟨12593, 12643, 1⟩, ⟨12645, 12686, 1⟩, ⟨12688, 12773, 1⟩,
    ⟨12783, 12830, 1⟩, ⟨12832, 42124, 1⟩, ⟨42128, 42182, 1⟩, ⟨42192, 42539, 1⟩, ⟨42560, 42606, 1⟩, ⟨42611, 42611, 1⟩,
    ⟨42622, 42653, 1⟩, ⟨42656, 42735, 1⟩, ⟨42738, 42743, 1⟩, ⟨42752, 42972, 1⟩, ⟨42993, 43009, 1⟩, ⟨43011, 43013, 1⟩,
    ⟨43015, 43018, 1⟩, ⟨43020, 43044, 1⟩, ⟨43047, 43051, 1⟩, ⟨43056, 43065, 1⟩, ⟨43072, 43127, 1⟩, ⟨43136, 43203, 1⟩,
    ⟨43214, 43225, 1⟩, ⟨43250, 43262, 1⟩, ⟨43264, 43301, 1⟩, ⟨43310, 43334, 1⟩, ⟨43346, 43346, 1⟩, ⟨43359, 43388, 1⟩,
    ⟨43395, 43442, 1⟩, ⟨43444, 43445, 1⟩, ⟨43450, 43451, 1⟩, ⟨43454, 43455, 1⟩, ⟨43457, 43469, 1⟩, ⟨43471, 43481, 1⟩,
    ⟨43486, 43492, 1⟩, ⟨43494, 43518, 1⟩, ⟨43520, 43560, 1⟩, ⟨43567, 43568, 1⟩, ⟨43571, 43572, 1⟩, ⟨43584, 43586, 1⟩,
    ⟨43588, 43595, 1⟩, ⟨43597, 43597, 1⟩, ⟨43600, 43609, 1⟩, ⟨43612, 43643, 1⟩, ⟨43645, 43695, 1⟩, ⟨43697, 43697, 1⟩,
    ⟨43701, 43702, 1⟩, ⟨43705, 43709, 1⟩, ⟨43712, 43712, 1⟩, ⟨43714, 43714, 1⟩, ⟨43739, 43755, 1⟩, ⟨43758, 43765, 1⟩,
    ⟨43777, 43782, 1⟩, ⟨43785, 43790, 1⟩, ⟨43793, 43798, 1⟩, ⟨43808, 43814, 1⟩, ⟨43816, 43822, 1⟩, ⟨43824, 43883, 1⟩,
    ⟨43888, 44004, 1⟩, ⟨44006, 44007, 1⟩, ⟨44009, 44012, 1⟩, ⟨44016, 44025, 1⟩, ⟨44032, 55203, 1⟩, ⟨55216, 55238, 1⟩,
    ⟨55243, 55291, 1⟩, ⟨63744, 64109, 1⟩, ⟨64112, 64217, 1⟩, ⟨64256, 64262, 1⟩, ⟨64275, 64279, 1⟩, ⟨64285, 64285, 1⟩,
    ⟨64287, 64310, 1⟩, ⟨64312, 64316, 1⟩, ⟨64318, 64318, 1⟩, ⟨64320, 64321, 1⟩, ⟨64323, 64324, 1⟩, ⟨64326, 64975, 1⟩,
    ⟨65008, 65023, 1⟩, ⟨65040, 65049, 1⟩, ⟨65072, 65106, 1⟩, ⟨65108, 65126, 1⟩, ⟨65128, 65131, 1⟩, ⟨65136, 65140, 1⟩,
    ⟨65142, 65276, 1⟩, ⟨65281, 65439, 1⟩, ⟨65441, 65470, 1⟩, ⟨65474, 65479, 1⟩, ⟨65482, 65487, 1⟩, ⟨65490, 65495, 1⟩,
    ⟨65498, 65500, 1⟩, ⟨65504, 65510, 1⟩, ⟨65512, 65518, 1⟩, ⟨65532, 65533, 1⟩, ⟨65536, 65547, 1⟩, ⟨65549, 65574, 1⟩,
    ⟨65576, 65594, 1⟩, ⟨65596, 65597, 1⟩, ⟨65599, 65613, 1⟩, ⟨65616, 65629, 1⟩, ⟨65664, 65786, 1⟩, ⟨65792, 65794, 1⟩,
    ⟨65799, 65843, 1⟩, ⟨65847, 65934, 1⟩, ⟨65936, 65948, 1⟩, ⟨65952, 65952, 1⟩, ⟨66000, 66044, 1⟩, ⟨66176, 66204, 1⟩,
    ⟨66208, 66256, 1⟩, ⟨66273, 66299, 1⟩, ⟨66304, 66339, 1⟩, ⟨66349, 66378, 1⟩, ⟨66384, 66421, 1⟩, ⟨66432, 66461, 1⟩,
    ⟨66463, 66499, 1⟩, ⟨66504, 66517, 1⟩, ⟨66560, 66717, 1⟩, ⟨66720, 66729, 1⟩, ⟨66736, 66771, 1⟩, ⟨66776, 66811, 1⟩,
    ⟨66816, 66855, 1⟩, ⟨66864, 66915, 1⟩, ⟨66927, 66938, 1⟩, ⟨66940, 66954, 1⟩, ⟨66956, 66962, 1⟩, ⟨66964, 66965, 1⟩,
    ⟨66967, 66977, 1⟩, ⟨66979, 66993, 1⟩, ⟨66995, 67001, 1⟩, ⟨67003, 67004, 1⟩, ⟨67008, 67059, 1⟩, ⟨67072, 67382, 1⟩,
    ⟨67392, 67413, 1⟩, ⟨67424, 67431, 1⟩, ⟨67456, 67461, 1⟩, ⟨67463, 67504, 1⟩, ⟨67506, 67514, 1⟩, ⟨67584, 67589, 1⟩,
    ⟨67592, 67592, 1⟩, ⟨67594, 67637, 1⟩, ⟨67639, 67640, 1⟩, ⟨67644, 67644, 1⟩, ⟨67647, 67669, 1⟩, ⟨67671, 67742, 1⟩,
    ⟨67751, 67759, 1⟩, ⟨67808, 67826, 1⟩, ⟨67828, 67829, 1⟩, ⟨67835, 67867, 1⟩, ⟨67871, 67897, 1⟩, ⟨67903, 67929, 1⟩,
    ⟨67968, 68023, 1⟩, ⟨68028, 68047, 1⟩, ⟨68050, 68096, 1⟩, ⟨68112, 68115, 1⟩, ⟨68117, 68119, 1⟩, ⟨68121, 68149, 1⟩,
    ⟨68160, 68168, 1⟩, ⟨68176, 68184, 1⟩, ⟨68192, 68255, 1⟩, ⟨68288, 68324, 1⟩, ⟨68331, 68342, 1⟩, ⟨68352, 68405, 1⟩,
    ⟨68409, 68437, 1⟩, ⟨68440, 68466, 1⟩, ⟨68472, 68497, 1⟩, ⟨68505, 68508, 1⟩, ⟨68521, 68527, 1⟩, ⟨68608, 68680, 1⟩,
    ⟨68736, 68786, 1⟩, ⟨68800, 68850, 1⟩, ⟨68858, 68899, 1⟩, ⟨68912, 68921, 1⟩, ⟨68928, 68965, 1⟩, ⟨68974, 68997, 1⟩,
    ⟨69006, 69007, 1⟩, ⟨69216, 69246, 1⟩, ⟨69248, 69289, 1⟩, ⟨69293, 69293, 1⟩, ⟨69296, 69297, 1⟩, ⟨69314, 69319, 1⟩,
    ⟨69328, 69336, 1⟩, ⟨69376, 69415, 1⟩, ⟨69424, 69445, 1⟩, ⟨69457, 69465, 1⟩, ⟨69488, 69505, 1⟩, ⟨69510, 69513, 1⟩,
    ⟨69552, 69579, 1⟩, ⟨69600, 69622, 1⟩, ⟨69632, 69632, 1⟩, ⟨69634, 69687, 1⟩, ⟨69703, 69709, 1⟩, ⟨69714, 69743, 1⟩,
    ⟨69745, 69746, 1⟩, ⟨69749, 69749, 1⟩, ⟨69762, 69810, 1⟩, ⟨69815, 69816, 1⟩, ⟨69819, 69820, 1⟩, ⟨69822, 69825, 1⟩,
    ⟨69840, 69864, 1⟩, ⟨69872, 69881, 1⟩, ⟨69891, 69926, 1⟩, ⟨69932, 69932, 1⟩, ⟨69942, 69959, 1⟩, ⟨69968, 70002, 1⟩,
    ⟨70004, 70006, 1⟩, ⟨70018, 70069, 1⟩, ⟨70079, 70079, 1⟩, ⟨70081, 70088, 1⟩, ⟨70093, 70094, 1⟩, ⟨70096, 70111, 1⟩,
    ⟨70113, 70132, 1⟩, ⟨70144, 70161, 1⟩, ⟨70163, 70190, 1⟩, ⟨70194, 70195, 1⟩, ⟨70200, 70205, 1⟩, ⟨70207, 70208, 1⟩,
    ⟨70272, 70278, 1⟩, ⟨70280, 70280, 1⟩, ⟨70282, 70285, 1⟩, ⟨70287, 70301, 1⟩, ⟨70303, 70313, 1⟩, ⟨70320, 70366, 1⟩,
    ⟨70368, 70370, 1⟩, ⟨70384, 70393, 1⟩, ⟨70402, 70403, 1⟩, ⟨70405, 70412, 1⟩, ⟨70415, 70416, 1⟩, ⟨70419, 70440, 1⟩,
    ⟨70442, 70448, 1⟩, ⟨70450, 70451, 1⟩, ⟨70453, 70457, 1⟩, ⟨70461, 70461, 1⟩, ⟨70463, 70463, 1⟩, ⟨70465, 70468, 1⟩,
    ⟨70471, 70472, 1⟩, ⟨70475, 70476, 1⟩, ⟨70480, 70480, 1⟩, ⟨70493, 70499, 1⟩, ⟨70528, 70537, 1⟩, ⟨70539, 70539, 1⟩,
    ⟨70542, 70542, 1⟩, ⟨70544, 70581, 1⟩, ⟨70583, 70583, 1⟩, ⟨70585, 70586, 1⟩, ⟨70602, 70602, 1⟩, ⟨70604, 70605, 1⟩,
    ⟨70609, 70609, 1⟩, ⟨70611, 70613, 1⟩, ⟨70615, 70616, 1⟩, ⟨70656, 70711, 1⟩, ⟨70720, 70721, 1⟩, ⟨70725, 70725, 1⟩,
    ⟨70727, 70747, 1⟩, ⟨70749, 70749, 1⟩, ⟨70751, 70753, 1⟩, ⟨70784, 70831, 1⟩, ⟨70833, 70834, 1⟩, ⟨70841, 70841, 1⟩,
    ⟨70843, 70844, 1⟩, ⟨70846, 70846, 1⟩, ⟨70849, 70849, 1⟩, ⟨70852, 70855, 1⟩, ⟨70864, 70873, 1⟩, ⟨71040, 71086, 1⟩,
    ⟨71088, 71089, 1⟩, ⟨71096, 71099, 1⟩, ⟨71102, 71102, 1⟩, ⟨71105, 71131, 1⟩, ⟨71168, 71218, 1⟩, ⟨71227, 71228, 1⟩,
    ⟨71230, 71230, 1⟩, ⟨71233, 71236, 1⟩, ⟨71248, 71257, 1⟩, ⟨71264, 71276, 1⟩, ⟨71296, 71338, 1⟩, ⟨71340, 71340, 1⟩,
    ⟨71342, 71343, 1⟩, ⟨71352, 71353, 1⟩, ⟨71360, 71369, 1⟩, ⟨71376, 71395, 1⟩, ⟨71424, 71450, 1⟩, ⟨71454, 71454, 1⟩,
    ⟨71456, 71457, 1⟩, ⟨71462, 71462, 1⟩, ⟨71472, 71494, 1⟩, ⟨71680, 71726, 1⟩, ⟨71736, 71736, 1⟩, ⟨71739, 71739, 1⟩,
    ⟨71840, 71922, 1⟩, ⟨71935, 71942, 1⟩, ⟨71945, 71945, 1⟩, ⟨71948, 71955, 1⟩, ⟨71957, 71958, 1⟩, ⟨71960, 71983, 1⟩,
    ⟨71985, 71989, 1⟩, ⟨71991, 71992, 1⟩, ⟨71999, 72002, 1⟩, ⟨72004, 72006, 1⟩, ⟨72016, 72025, 1⟩, ⟨72096, 72103, 1⟩,
    ⟨72106, 72147, 1⟩, ⟨72156, 72159, 1⟩, ⟨72161, 72164, 1⟩, ⟨72192, 72192, 1⟩, ⟨72203, 72242, 1⟩, ⟨72249, 72250, 1⟩,
    ⟨72255, 72262, 1⟩, ⟨72272, 72272, 1⟩, ⟨72279, 72280, 1⟩, ⟨72284, 72329, 1⟩, ⟨72343, 72343, 1⟩, ⟨72346, 72354, 1⟩,
    ⟨72368, 72440, 1⟩, ⟨72448, 72457, 1⟩, ⟨72545, 72545, 1⟩, ⟨72549, 72549, 1⟩, ⟨72551, 72551, 1⟩, ⟨72640, 72673, 1⟩,
    ⟨72688, 72697, 1⟩, ⟨72704, 72712, 1⟩, ⟨72714, 72751, 1⟩, ⟨72766, 72766, 1⟩, ⟨72768, 72773, 1⟩, ⟨72784, 72812, 1⟩,
    ⟨72816, 72847, 1⟩, ⟨72873, 72873, 1⟩, ⟨72881, 72881, 1⟩, ⟨72884, 72884, 1⟩, ⟨72960, 72966, 1⟩, ⟨72968, 72969, 1⟩,
    ⟨72971, 73008, 1⟩, ⟨73030, 73030, 1⟩, ⟨73040, 73049, 1⟩, ⟨73056, 73061, 1⟩, ⟨73063, 73064, 1⟩, ⟨73066, 73102, 1⟩,
    ⟨73107, 73108, 1⟩, ⟨73110, 73110, 1⟩, ⟨73112, 73112, 1⟩, ⟨73120, 73129, 1⟩, ⟨73136, 73179, 1⟩, ⟨73184, 73193, 1⟩,
    ⟨73440, 73458, 1⟩, ⟨73461, 73464, 1⟩, ⟨73474, 73488, 1⟩, ⟨73490, 73525, 1⟩, ⟨73534, 73535, 1⟩, ⟨73539, 73561, 1⟩,
    ⟨73648, 73648, 1⟩, ⟨73664, 73713, 1⟩, ⟨73727, 74649, 1⟩, ⟨74752, 74862, 1⟩, ⟨74864, 74868, 1⟩, ⟨74880, 75075, 1⟩,
    ⟨77712, 77810, 1⟩, ⟨77824, 78895, 1⟩, ⟨78913, 78918, 1⟩, ⟨78944, 82938, 1⟩, ⟨82944, 83526, 1⟩, ⟨90368, 90397, 1⟩,
    ⟨90410, 90412, 1⟩, ⟨90416, 90425, 1⟩, ⟨92160, 92728, 1⟩, ⟨92736, 92766, 1⟩, ⟨92768, 92777, 1⟩, ⟨92782, 92862, 1⟩,
    ⟨92864, 92873, 1⟩, ⟨92880, 92909, 1⟩, ⟨92917, 92917, 1⟩, ⟨92928, 92975, 1⟩, ⟨92983, 92997, 1⟩, ⟨93008, 93017, 1⟩,
    ⟨93019, 93025, 1⟩, ⟨93027, 93047, 1⟩, ⟨93053, 93071, 1⟩, ⟨93504, 93561, 1⟩, ⟨93760, 93850, 1⟩, ⟨93856, 93880, 1⟩,
    ⟨93883, 93907, 1⟩, ⟨93952, 94026, 1⟩, ⟨94032, 94087, 1⟩, ⟨94099, 94111, 1⟩, ⟨94176, 94179, 1⟩, ⟨94194, 94198, 1⟩,
    ⟨94208, 101589, 1⟩, ⟨101631, 101662, 1⟩, ⟨101760, 101874, 1⟩, ⟨110576, 110579, 1⟩, ⟨110581, 110587, 1⟩, ⟨110589, 110590, 1⟩,
    ⟨110592, 110882, 1⟩, ⟨110898, 110898, 1⟩, ⟨110928, 110930, 1⟩, ⟨110933, 110933, 1⟩, ⟨110948, 110951, 1⟩, ⟨110960, 111355, 1⟩,
    ⟨113664, 113770, 1⟩, ⟨113776, 113788, 1⟩, ⟨113792, 113800, 1⟩, ⟨113808, 113817, 1⟩, ⟨113820, 113820, 1⟩, ⟨113823, 113823, 1⟩,
    ⟨117760, 118012, 1⟩, ⟨118016, 118451, 1⟩, ⟨118458, 118480, 1⟩, ⟨118496, 118512, 1⟩, ⟨118608, 118723, 1⟩, ⟨118784, 119029, 1⟩,
    ⟨119040, 119078, 1⟩, ⟨119081, 119140, 1⟩, ⟨119146, 119148, 1⟩, ⟨119171, 119172, 1⟩, ⟨119180, 119209, 1⟩, ⟨119214, 119274, 1⟩,
    ⟨119296, 119361, 1⟩, ⟨119365, 119365, 1⟩, ⟨119488, 119507, 1⟩, ⟨119520, 119539, 1⟩, ⟨119552, 119638, 1⟩, ⟨119648, 119672, 1⟩,
    ⟨119808, 119892, 1⟩, ⟨119894, 119964, 1⟩, ⟨119966, 119967, 1⟩, ⟨119970, 119970, 1⟩, ⟨119973, 119974, 1⟩, ⟨119977, 119980, 1⟩,
    ⟨119982, 119993, 1⟩, ⟨119995, 119995, 1⟩, ⟨119997, 120003, 1⟩, ⟨120005, 120069, 1⟩, ⟨120071, 120074, 1⟩, ⟨120077, 120084, 1⟩,
    ⟨120086, 120092, 1⟩, ⟨120094, 120121, 1⟩, ⟨120123, 120126, 1⟩, ⟨120128, 120132, 1⟩, ⟨120134, 120134, 1⟩, ⟨120138, 120144, 1⟩,
    ⟨120146, 120485, 1⟩, ⟨120488, 120779, 1⟩, ⟨120782, 121343, 1⟩, ⟨121399, 121402, 1⟩, ⟨121453, 121460, 1⟩, ⟨121462, 121475, 1⟩,
    ⟨121477, 121483, 1⟩, ⟨122624, 122654, 1⟩, ⟨122661, 122666, 1⟩, ⟨122928, 122989, 1⟩, ⟨123136, 123180, 1⟩, ⟨123191, 123197, 1⟩,
    ⟨123200, 123209, 1⟩, ⟨123214, 123215, 1⟩, ⟨123536, 123565, 1⟩, ⟨123584, 123627, 1⟩, ⟨123632, 123641, 1⟩, ⟨123647, 123647, 1⟩,
    ⟨124112, 124139, 1⟩, ⟨124144, 124153, 1⟩, ⟨124368, 124397, 1⟩, ⟨124400, 124410, 1⟩, ⟨124415, 124415, 1⟩, ⟨124608, 124638, 1⟩,
    ⟨124640, 124642, 1⟩, ⟨124644, 124645, 1⟩, ⟨124647, 124653, 1⟩, ⟨124656, 124660, 1⟩, ⟨124670, 124671, 1⟩, ⟨124896, 124902, 1⟩,
    ⟨124904, 124907, 1⟩, ⟨124909, 124910, 1⟩, ⟨124912, 124926, 1⟩, ⟨124928, 125124, 1⟩, ⟨125127, 125135, 1⟩, ⟨125184, 125251, 1⟩,
    ⟨125259, 125259, 1⟩, ⟨125264, 125273, 1⟩, ⟨125278, 125279, 1⟩, ⟨126065, 126132, 1⟩, ⟨126209, 126269, 1⟩, ⟨126464, 126467, 1⟩,
    ⟨126469, 126495, 1⟩, ⟨126497, 126498, 1⟩, ⟨126500, 126500, 1⟩, ⟨126503, 126503, 1⟩, ⟨126505, 126514, 1⟩, ⟨126516, 126519, 1⟩,
    ⟨126521, 126521, 1⟩, ⟨126523, 126523, 1⟩, ⟨126530, 126530, 1⟩, ⟨126535, 126535, 1⟩, ⟨126537, 126537, 1⟩, ⟨126539, 126539, 1⟩,
    ⟨126541, 126543, 1⟩, ⟨126545, 126546, 1⟩, ⟨126548, 126548, 1⟩, ⟨126551, 126551, 1⟩, ⟨126553, 126553, 1⟩, ⟨126555, 126555, 1⟩,
    ⟨126557, 126557, 1⟩, ⟨126559, 126559, 1⟩, ⟨126561, 126562, 1⟩, ⟨126564, 126564, 1⟩, ⟨126567, 126570, 1⟩, ⟨126572, 126578, 1⟩,
    ⟨126580, 126583, 1⟩, ⟨126585, 126588, 1⟩, ⟨126590, 126590, 1⟩, ⟨126592, 126601, 1⟩, ⟨126603, 126619, 1⟩, ⟨126625, 126627, 1⟩,
    ⟨126629, 126633, 1⟩, ⟨126635, 126651, 1⟩, ⟨126704, 126705, 1⟩, ⟨126976, 127019, 1⟩, ⟨127024, 127123, 1⟩, ⟨127136, 127150, 1⟩,
    ⟨127153, 127167, 1⟩, ⟨127169, 127183, 1⟩, ⟨127185, 127221, 1⟩, ⟨127232, 127405, 1⟩, ⟨127462, 127490, 1⟩, ⟨127504, 127547, 1⟩,
    ⟨127552, 127560, 1⟩, ⟨127568, 127569, 1⟩, ⟨127584, 127589, 1⟩, ⟨127744, 128728, 1⟩, ⟨128732, 128748, 1⟩, ⟨128752, 128764, 1⟩,
    ⟨128768, 128985, 1⟩, ⟨128992, 129003, 1⟩, ⟨129008, 129008, 1⟩, ⟨129024, 129035, 1⟩, ⟨129040, 129095, 1⟩, ⟨129104, 129113, 1⟩,
    ⟨129120, 129159, 1⟩, ⟨129168, 129197, 1⟩, ⟨129200, 129211, 1⟩, ⟨129216, 129217, 1⟩, ⟨129232, 129240, 1⟩, ⟨129280, 129623, 1⟩,
    ⟨129632, 129645, 1⟩, ⟨129648, 129660, 1⟩, ⟨129664, 129674, 1⟩, ⟨129678, 129734, 1⟩, ⟨129736, 129736, 1⟩, ⟨129741, 129756, 1⟩,
    ⟨129759, 129770, 1⟩, ⟨129775, 129784, 1⟩, ⟨129792, 129938, 1⟩, ⟨129940, 130042, 1⟩, ⟨131072, 173791, 1⟩, ⟨173824, 178205, 1⟩,
    ⟨178208, 183981, 1⟩, ⟨183984, 191456, 1⟩, ⟨191472, 192093, 1⟩, ⟨194560, 195101, 1⟩, ⟨196608, 201546, 1⟩, ⟨201552, 210041, 1⟩]

/-- Characters that a quotation shows unescaped, quotation marks and the backslash apart. -/
def isPrintable (c : Char) : Bool :=
  if c.toNat < 128 then 0x20 ≤ c.toNat && c.toNat < 0x7F else inRanges printableRanges c.toNat

end CanonicalIdl.Text
