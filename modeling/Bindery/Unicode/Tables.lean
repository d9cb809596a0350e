/-!
# Tables of the Unicode character database

For every general category, script and binary property that a pattern can name: its names, and
the code points that have it. The code points are written as runs in increasing order; a run is
the distance from the end of the run before it and, where it is longer than one code point, a
point and its length. `foldings` lists the simple case foldings: first code point, number of code
points, step from one to the next, and the code point that the first one folds to.
-/

namespace Bindery.Unicode

/-- A named set of code points in run-length form. -/
structure TableRow where
  /-- The accepted names, the short one first. -/
  names : List String
  /-- The runs of code points. -/
  runs : String

/-- The general categories. -/
def categoryRows : List TableRow := [
  ⟨["Lu", "Uppercase_Letter"],
    "65.26 101.23 1.7 33 1 1 1 1 1 1 1 1 1 1 1 1 1 1 1 1 1 1 1 1 1 1 1 1 1 1 1 2 1 1 1 1 1 1 1 2 "
    ++ "1 1 1 1 1 1 1 1 1 1 1 1 1 1 1 1 1 1 1 1 1 1 1.2 1 1 3.2 1 1.2 1.3 2.4 1.2 1.3 3.2 1.2 1 1 "
    ++ "1.2 1 2 1.2 1.3 1 1.2 3 7 2 2 2 1 1 1 1 1 1 1 2 1 1 1 1 1 1 1 1 2 2 1.3 1 1 1 1 1 1 1 1 1 1 "
    ++ "1 1 1 1 1 1 1 1 1 1 1 1 1 1 1 1 1 1 1 7.2 1.2 2 1.4 1 1 1 1 289 1 3 8 6 1.3 1 1.2 1.17 1.9 "
    ++ "35 2.3 3 1 1 1 1 1 1 1 1 1 1 1 5 2 1.2 2.51 48 1 1 1 1 1 1 1 1 1 1 1 1 1 1 1 1 9 1 1 1 1 1 1 "
    ++ "1 1 1 1 1 1 1 1 1 1 1 1 1 1 1 1 1 1 1 1 1.2 1 1 1 1 1 1 2 1 1 1 1 1 1 1 1 1 1 1 1 1 1 1 1 1 "
    ++ "1 1 1 1 1 1 1 1 1 1 1 1 1 1 1 1 1 1 1 1 1 1 1 1 1 1 1 1 1 1 2.38 2889.38 1 5 722.86 2202.43 "
    ++ "2.3 320 1 1 1 1 1 1 1 1 1 1 1 1 1 1 1 1 1 1 1 1 1 1 1 1 1 1 1 1 1 1 1 1 1 1 1 1 1 1 1 1 1 1 "
    ++ "1 1 1 1 1 1 1 1 1 1 1 1 1 1 1 1 1 1 1 1 1 1 1 1 1 1 1 1 1 1 1 1 9 1 1 1 1 1 1 1 1 1 1 1 1 1 "
    ++ "1 1 1 1 1 1 1 1 1 1 1 1 1 1 1 1 1 1 1 1 1 1 1 1 1 1 1 1 1 1 1 1 1 1 1 9.8 8.6 10.8 8.8 8.6 "
    ++ "11 1 1 1 8.8 72.4 12.4 12.4 12.5 11.4 262 4 3.3 2.3 2 3.5 6 1 1 1.4 2.4 10.2 5 61 2684.48 48 "
    ++ "1.3 2 1 1 1.4 1 2 8.3 1 1 1 1 1 1 1 1 1 1 1 1 1 1 1 1 1 1 1 1 1 1 1 1 1 1 1 1 1 1 1 1 1 1 1 "
    ++ "1 1 1 1 1 1 1 1 1 1 1 1 1 1 8 1 4 31053 1 1 1 1 1 1 1 1 1 1 1 1 1 1 1 1 1 1 1 1 1 1 19 1 1 1 "
    ++ "1 1 1 1 1 1 1 1 1 1 135 1 1 1 1 1 1 3 1 1 1 1 1 1 1 1 1 1 1 1 1 1 1 1 1 1 1 1 1 1 1 1 1 1 1 "
    ++ "1 1 1 10 1 1.2 1 1 1 1 4 1 2 1 3 1 1 1 1 1 1 1 1 1 1.5 1.5 1 1 1 1 1 1 1 1.4 1 6 5 1 28 "
    ++ "22315.26 1221.40 136.36 156.11 1.15 1.7 1.2 1770.51 3053.32 21888.32 26016.26 26.26 26.26 26 "
    ++ "1.2 2 2.2 2.4 1.8 26.26 26.2 1.4 2.8 1.7 27.2 1.4 1.5 1 3.7 27.26 26.26 26.26 26.26 26.26 "
    ++ "26.26 30.25 33.25 33.25 33.25 33.25 33 4405.34"⟩,
  ⟨["Ll", "Lowercase_Letter"],
    "97.26 58 41.24 1.8 1 1 1 1 1 1 1 1 1 1 1 1 1 1 1 1 1 1 1 1 1 1 1 1 1 1 1 1.2 1 1 1 1 1 1 1 "
    ++ "1.2 1 1 1 1 1 1 1 1 1 1 1 1 1 1 1 1 1 1 1 1 1 1 1 2 1 1.3 2 1 2 3.2 4 2 3.3 2 2 1 1 2 1.2 1 "
    ++ "2 3 1 2.2 2.3 6 2 2 1 1 1 1 1 1 1 1.2 1 1 1 1 1 1 1 1 1.2 2 1 3 1 1 1 1 1 1 1 1 1 1 1 1 1 1 "
    ++ "1 1 1 1 1 1 1 1 1 1 1 1 1 1 1.7 2 2.2 1 4 1 1 1 1.69 1.27 193 1 3 3.3 18 27.35 1.2 3.3 1 1 1 "
    ++ "1 1 1 1 1 1 1 1 1.5 1 2 2.2 51.48 1 1 1 1 1 1 1 1 1 1 1 1 1 1 1 1 1 9 1 1 1 1 1 1 1 1 1 1 1 "
    ++ "1 1 1 1 1 1 1 1 1 1 1 1 1 1 1 2 1 1 1 1 1 1.2 1 1 1 1 1 1 1 1 1 1 1 1 1 1 1 1 1 1 1 1 1 1 1 "
    ++ "1 1 1 1 1 1 1 1 1 1 1 1 1 1 1 1 1 1 1 1 1 1 1 1 1 48.41 2887.43 2.3 760.6 2178.9 119.44 "
    ++ "63.13 1.34 102 1 1 1 1 1 1 1 1 1 1 1 1 1 1 1 1 1 1 1 1 1 1 1 1 1 1 1 1 1 1 1 1 1 1 1 1 1 1 1 "
    ++ "1 1 1 1 1 1 1 1 1 1 1 1 1 1 1 1 1 1 1 1 1 1 1 1 1 1 1 1 1 1 1 1 1 1 1.9 1 1 1 1 1 1 1 1 1 1 "
    ++ "1 1 1 1 1 1 1 1 1 1 1 1 1 1 1 1 1 1 1 1 1 1 1 1 1 1 1 1 1 1 1 1 1 1 1 1 1 1 1.9 8.6 10.8 8.8 "
    ++ "8.6 10.8 8.8 8.14 2.8 8.8 8.8 8.5 1.2 6 3.3 1.2 8.4 2.2 8.8 10.3 1.2 274 3.2 3 27 4 4 2.2 "
    ++ "8.4 4 53 2731.48 1 3.2 1 1 1 4 1.2 1.6 5 1 1 1 1 1 1 1 1 1 1 1 1 1 1 1 1 1 1 1 1 1 1 1 1 1 1 "
    ++ "1 1 1 1 1 1 1 1 1 1 1 1 1 1 1 1 1 1 1 1 1 1 1.2 7 1 4 12.38 1 5 30995 1 1 1 1 1 1 1 1 1 1 1 "
    ++ "1 1 1 1 1 1 1 1 1 1 1 19 1 1 1 1 1 1 1 1 1 1 1 1 1 135 1 1 1 1 1 1.3 1 1 1 1 1 1 1 1 1 1 1 1 "
    ++ "1 1 1 1 1 1 1 1 1 1 1 1 1 1 1 1 1 1 1 1.8 1 1 2 1 1 1 1 4 1 2 1.3 1 1 1 1 1 1 1 1 1 1 5 5 1 "
    ++ "1 1 1 1 1 1 4 1 6 1 1 1 1 28 3 821.43 5.9 7.80 20288.7 12.5 1065.26 1229.40 136.36 155.11 "
    ++ "1.15 1.7 1.2 1795.51 3021.32 21888.32 26010.26 26.7 1.18 26.26 26.4 1 1.7 1.11 26.26 26.26 "
    ++ "26.26 26.26 26.26 26.26 26.26 26.26 26.28 28.25 1.6 26.25 1.6 26.25 1.6 26.25 1.6 26.25 1.6 "
    ++ "1 1844.10 1.20 6.6 2551.34"⟩,
  ⟨["Lt", "Titlecase_Letter"],
    "453 2 2 38 7573.8 8.8 8.8 12 15 47"⟩,
  ⟨["Lm", "Modifier_Letter"],
    "688.18 4.12 14.5 7 1 133 5 478 230 164.2 269.2 4 31 9 3 160 167 1236 127 565 1754 107 611 "
    ++ "464.6 174.63 13 34.37 689 13 16.13 3039.2 241 191 469 43.5 5 97.2 93.3 28438 1250.6 270 114 "
    ++ "28.2 121.9 80 23 105.3 3.2 469 22 137 108 21.2 103.4 9 21510 45.2 2016.6 1.42 1.9 25477.4 "
    ++ "1103.13 64.2 1 16396.4 1.7 1.2 12337.62 201.7 941 1119"⟩,
  ⟨["Lo", "Other_Letter"],
    "170 15 256 4.4 208 827.27 4.4 45.32 1.10 35.2 1.99 1 24.2 10.3 2 16 1.30 29.89 11 24.33 "
    ++ "21.22 42.25 7.11 5.24 1.6 17.41 59.54 3 18 7.10 16.15 4.8 2.2 2.22 1.7 1 3.4 3 16 13.2 1.3 "
    ++ "14.2 10 8.6 4.2 2.22 1.7 1.2 1.2 1.2 31.4 1 19.3 16.9 1.3 1.22 1.7 1.2 1.5 3 18 15.2 23 11.8 "
    ++ "2.2 2.22 1.7 1.2 1.5 3 30.2 1.3 15 17 1.6 3.3 1.4 3.2 1 1.2 3.2 3.3 3.12 22 52.8 1.3 1.23 "
    ++ "1.16 3 26.3 2 2.2 30 4.8 1.3 1.23 1.10 1.5 3 31.2 1.2 15.2 17.9 1.3 1.41 2 16 5.3 8.3 24.6 "
    ++ "5.18 3.24 1.9 1 2.7 58.48 1.2 12.6 59.2 1 1.5 1.24 1 1.10 1.2 9 2.5 23.4 32 63.8 1.36 27.5 "
    ++ "115.43 20 16.6 4.4 3 3.2 7.3 4.13 12 113.329 1.4 2.7 1 1.4 2.41 1.4 2.33 1.4 2.7 1 1.4 2.15 "
    ++ "1.57 1.4 2.67 37.16 113.620 2.17 1.26 5.75 6.8 7.18 13.19 14.18 14.13 1.3 15.52 40 67.35 "
    ++ "1.53 7.5 2.34 1 5.70 10.31 49.30 2.5 11.44 4.26 54.23 9.53 176.47 17.8 54.30 13.2 10.44 "
    ++ "26.36 41.3 10.30 113.4 1.6 1.2 3 1082.4 3063.56 24.23 9.7 1.7 1.7 1.7 1.7 1.7 1.7 1.7 551 53 "
    ++ "4.86 8 1.90 4 5.43 1.94 17.32 48.16 512.6592 64.21013 1.1143 67.40 8.268 4.16 10.2 66 49.70 "
    ++ "169 103 3.7 1.3 1.4 1.23 29.52 14.50 62.6 3 1.2 11.28 10.23 25.29 7.47 45.5 2.9 10.5 1.41 "
    ++ "23.3 1.8 20.16 1.6 3 3.50 1 3.2 2.5 2 1 24.2 3.11 7 14.6 2.6 2.6 9.7 1.7 145.35 29.11172 "
    ++ "12.23 4.49 8452.366 2.106 67 1.10 1.13 1.5 1 1.2 1.2 1.108 33.363 18.64 2.54 40.12 116.5 "
    ++ "1.135 105.10 1.45 2.31 3.6 2.6 2.6 2.3 35.12 1.26 1.19 1.2 1.15 2.14 34.123 389.29 3.49 "
    ++ "47.32 13.20 1.8 6.38 10.30 2.36 4.8 128.78 98.40 8.52 156.311 9.22 10.8 152.6 2 1.44 1.2 3 "
    ++ "2.23 10.23 9.31 65.19 1.2 10.22 10.26 70.56 6.2 64 15.4 1.3 1.29 42.29 3.29 35.8 1.28 27.54 "
    ++ "10.22 10.19 13.18 110.73 183.36 348.42 6.2 78.29 10 8.22 42.18 46.21 27.23 12.53 57.2 2 "
    ++ "13.45 32.25 26.36 29 2 8.35 3 12.48 14.4 21 1 35.18 1.25 19.2 63.7 1 1.4 1.15 1.10 7.47 38.8 "
    ++ "2.2 2.22 1.7 1.2 1.5 3 18 12.5 158.53 18.4 20.3 30.48 20.2 1 184.47 41.4 36.48 20 59.43 13 "
    ++ "71.27 37.7 185.44 211.8 2 2.8 1.2 1.24 15 1 94.8 2.39 16 1 28 10.40 7 21 11.46 19 18.73 "
    ++ "263.9 1.37 17 49.30 112.7 1.2 1.38 21 25.6 1.2 1.32 14 327.19 15 1.13 1.34 124 79.922 "
    ++ "230.196 2636.97 15.1072 17.6 4025.583 8633.569 7.31 17.79 17.30 18.48 51.21 5.19 880.75 5 "
    ++ "175.6136 8.1238 42.9 8951.291 15 29.3 2 14.4 8.396 2308.107 5.13 3.9 7.10 8816 501.45 33 "
    ++ "321.30 18.44 484.27 757.7 1.4 1.2 1.15 1.197 1339.4 1.27 1.2 1 2 1.10 1.4 1 1 6 4 1 1 1.3 "
    ++ "1.2 1 2 1 1 1 1 1.2 1 2.4 1.7 1.4 1.4 1 1.10 1.17 5.3 1.5 1.17 4420.42720 32.4154 6.222 "
    ++ "2.5762 14.7473 3103.542 1506.4939 5.4192"⟩,
  ⟨["Mn", "Nonspacing_Mark"],
    "768.112 275.5 265.45 1 1.2 1.2 1 72.11 48.21 16 101.7 2.6 2.2 1.4 35 30.27 91.11 58.9 9 24.4 "
    ++ "1.9 1.3 1.5 43.3 60.8 42.24 1.32 55 1 4.8 4 3.7 10.2 29 58 4.4 8 20.2 26 2.2 57 4.2 4.2 2.3 "
    ++ "3 30.2 3 11.2 57 4.5 1.2 4 20.2 22.6 1 58 2 1.4 8 7.2 11.2 30 61 12 50 3 55 1.3 5.3 1.4 7.2 "
    ++ "11.2 29 58 2 6 5.2 20.2 28.2 57.2 4.4 8 20.2 29 72 7.3 1 90 2.7 12.8 98 2.9 11.7 73.2 27 1 1 "
    ++ "55.14 1.5 1.2 5.11 1.36 9 102.4 1.6 1.2 2.2 25.2 4.3 16.4 13 2.2 6 15 703.3 946.3 29.2 30.2 "
    ++ "30.2 64.2 1.7 8 2.11 9 45.3 1 117.2 34 118.3 4.2 9 6.3 219.2 2 58 1.7 1 1 2.8 6.10 2 48.14 "
    ++ "1.16 49.4 48 1.5 1 5 40.9 12.2 32.4 2.2 1.3 56 1.2 3 1.3 58.8 2.2 152.3 1.13 1.7 4 6 3.2 "
    ++ "198.64 720.13 4 3.12 3070.3 141 96.32 554.4 107.2 30164 4.10 32.2 80.2 272 3 4 25.2 5 151.2 "
    ++ "26.18 13 38.8 25.11 46.3 48 2.4 2.2 39 67.6 2.2 2.2 12 8 47 51 1.3 2.2 5.2 1 42.2 8 238 2 4 "
    ++ "20272 737.16 16.16 973 226 149.5 1670.3 1.2 5.4 40.3 4 165.2 573.4 387.2 80.3 70.11 49.4 123 "
    ++ "54.15 41 2.2 10.3 49.4 2.2 7 61.3 36.5 1.8 62 12.2 52.9 10.4 2 95.3 2 1.2 6 2 157 3.8 21.2 "
    ++ "57.2 3 37.7 3.5 195.8 2.3 1 23 84.6 1 4.2 1.2 238.4 6.2 1.2 27.2 85.8 2 1.2 106 1 2.6 1 "
    ++ "101.3 2.4 1.5 259.9 1.2 256.2 1 4 144.4 2.2 4 32.10 40.6 2.4 8 9.6 2.3 46.13 1.2 406.7 1.6 1 "
    ++ "82.22 2.7 1.2 1.2 122.6 3 1.2 1.7 1 72.2 3 1 347.2 11.2 52.5 5 1 5373 6.15 13978.5 59.7 1048 "
    ++ "63.4 81 19640.2 4705.46 2.23 544.3 17.8 2.7 30.4 148.3 1979.55 4.50 8 14 22.5 1.15 1360.7 "
    ++ "1.17 2.7 1.2 1.5 100 160.7 375 61.4 508.4 992.7 109.7 792501.240"⟩,
  ⟨["Mc", "Spacing_Mark"],
    "2307 55 2.3 8.4 1.2 50.2 58.3 6.2 2.2 10 43 58.3 66 58.3 8 1.2 53.2 58 1 6.2 2.2 10 102.2 "
    ++ "1.2 3.3 1.3 10 41.3 61.4 61.2 58 1.5 2.2 1.2 9.2 28 14.2 58.3 5.3 1.3 10 42.2 75.3 6.8 18.2 "
    ++ "330.2 63 171.2 4 6 2.2 25.2 10.3 2.7 21.2 2.6 2 10.3 1656 30 129 7.8 1.2 346.4 2.3 4.2 1.6 "
    ++ "224.2 58 1 9 1.2 8.6 145 48 5 1.5 1.2 61 30 4.2 2 60 2.3 1 3.2 48.8 8.2 171 21 4918.2 "
    ++ "30707.2 2 88.2 50.16 142.2 47 48.2 4.2 2.3 110.2 2.2 24 45 1 109 2.2 5 237.2 1.2 1.2 1 25619 "
    ++ "1 127 45.3 4.2 115 24.2 59 48.3 9.2 13 93.3 3.2 1 170.3 31.2 58.2 1.4 2.2 2.3 9 10.2 209.3 "
    ++ "8.2 3 106.3 6 1.4 2 237.3 6.4 2 113.3 8.2 1 109 1.2 6 105.2 4 261.3 9 247.6 1.2 4 2 1 142.3 "
    ++ "8.4 4 84 29.2 62 407 14 106 7 2 213.5 4.2 1 350.2 12 48.2 8.2 1 20495.55 104.2 24947.2 6.6"⟩,
  ⟨["Me", "Enclosing_Mark"],
    "1160.2 5684 1566.4 1.3 34187.3"⟩,
  ⟨["Nd", "Decimal_Number", "Digit"],
    "48.10 1574.10 134.10 198.10 412.10 118.10 118.10 118.10 118.10 118.10 118.10 118.10 118.10 "
    ++ "118.10 96.10 118.10 70.10 278.10 70.10 1862.10 38.10 300.10 128.10 166.10 6.10 182.10 86.10 "
    ++ "134.10 6.10 35270.10 678.10 38.10 198.10 22.10 86.10 406.10 21270.10 1414.10 2182.10 812.10 "
    ++ "128.10 60.10 144.10 278.10 342.10 118.10 374.10 102.10 102.10 422.10 102.10 758.10 246.10 "
    ++ "70.10 422.10 19206.10 86.10 134.10 27764.50 2368.10 422.10 502.10 1110.10 4758.10"⟩,
  ⟨["Nl", "Letter_Number"],
    "5870.3 2671.35 2.4 3710 25.9 14.3 30379.10 23120.53 460 8 134.5 8234.111"⟩,
  ⟨["No", "Other_Number"],
    "178.2 5 2.3 2357.6 376.6 120.3 133.7 217.7 17.9 433.10 1077.20 1139.10 480 1685 3.6 6.10 "
    ++ "198.16 41 726.60 78.22 630.30 1385 1172.4 138.10 30.8 1.15 32.10 39.15 30064.6 22737.45 65.4 "
    ++ "17.2 341.27 36.4 1332.8 25.7 39.9 75.5 22.6 160.2 2.16 2.46 64.9 52.2 30.3 75.5 104.8 24.8 "
    ++ "41.7 330.6 352.31 158.10 42.4 112.7 134.20 379.20 1349.2 430.9 871.19 851.21 19334.7 798.23 "
    ++ "25641.20 12.20 108.25 5454.9 929.59 1.3 1.4 76.45 1.15 962.13"⟩,
  ⟨["Pc", "Connector_Punctuation"],
    "95 8159.2 19 56798.2 24.3 239"⟩,
  ⟨["Pd", "Dash_Punctuation"],
    "45 1372 51 3649 1029 2057.6 3585 2 31.2 4 28 446 19 111 52624.2 37 10 169 3999"⟩,
  ⟨["Ps", "Open_Punctuation"],
    "40 50 31 3774 1 1886 2430 3 38 55 15 634 1 30 1086 1 1 1 1 1 1 80 32 1 1 1 1 404 1 1 1 1 1 1 "
    ++ "1 1 1 1 64 1 33 1061 1 1 1 25 18 1 1 1 428 1 1 1 1 3 1 1 1 2 52513 215 29 1 1 1 1 1 1 1 3 17 "
    ++ "1 1 170 50 31 3 2"⟩,
  ⟨["Pe", "Close_Punctuation"],
    "41 51 31 3773 1 1886 2473 55 15 634 1 30 1086 1 1 1 1 1 1 80 32 1 1 1 1 404 1 1 1 1 1 1 1 1 "
    ++ "1 1 64 1 33 1061 1 1 1 44 1 1 1 428 1 1 1 1 3 1 1 1 2.2 52510 217 29 1 1 1 1 1 1 1 3 17 1 1 "
    ++ "170 51 31 2 2"⟩,
  ⟨["Pi", "Initial_Punctuation"],
    "171 8044 2.2 2 25 3528 1 4 2 15 3"⟩,
  ⟨["Pf", "Final_Punctuation"],
    "187 8029 3 28 3528 1 4 2 15 3"⟩,
  ⟨["Po", "Other_Punctuation"],
    "33.3 1.3 2 1 1.2 10.2 3.2 27 68 5 14.2 7 702 8 466.6 41 54 2 2 44.2 20.2 1.2 13 1.3 74.4 102 "
    ++ "43.14 233.3 54.15 31 261.2 10 140 120 121 390 12 367 90 10.2 168.15 1 112 74.5 4.2 111.6 171 "
    ++ "612.9 773 124.3 71.2 157.3 1.3 37.6 1.4 313.2 216.2 128.7 1.6 172.7 28.2 125.4 59.5 62.2 "
    ++ "64.8 11 834.2 8.8 8.9 2.4 2.3 3.11 1 1.10 3226.4 1.2 112 143.2 4.3 2 2.9 1.2 1 2.2 10.5 1.10 "
    ++ "2.4 1 1.13 2.3 428.3 57 189 29698.2 269.3 99 10 115.6 380.4 86.2 40.3 1 49.2 47 97.13 16.2 "
    ++ "124.4 126.2 16.2 249 21028.7 2 22 20.2 2.4 3.3 1.4 7.3 6 1.2 149.3 1.3 2 1 1.2 10.2 3.2 27 "
    ++ "36 2.2 410.3 668 48 414 743 199 31 272.9 38 112.7 66.7 89.4 952.5 44.4 189.7 109.2 1.4 126.4 "
    ++ "48.2 79.4 4 13 1.3 88.6 107 417.5 10.2 1 104 250.23 105.3 28.13 76 130.3 252 264.3 155 92.8 "
    ++ "83.3 1.5 93.10 311.5 42.2 645.2 74.13 175 1136.5 2940.2 14971.2 133 65.5 8 850.4 327 19644 "
    ++ "7655.5 3794.2"⟩,
  ⟨["Sm", "Math_Symbol"],
    "43 16.3 61 1 45 4 37 31 766 527.3 6715 13 39.3 13.3 139 39.5 6 68.5 5.2 4 2 2 7 31.2 2 1 "
    ++ "31.268 32.2 90 30.25 40.6 469 9 54.8 111 336.5 2.31 10.16 256.131 22.63 4.32 2.258 48.21 2.6 "
    ++ "53212 824 1.3 164 16.3 61 1 131 6.4 54996 25 31 25 31 25 31 25 31 25 5932.2"⟩,
  ⟨["Sc", "Currency_Symbol"],
    "36 125.4 1257 123 498.2 498.2 7 245 263 581 2459 2244.33 34679 21955 108 154 219.2 3.2 "
    ++ "8182.4 49950 2480"⟩,
  ⟨["Sk", "Modifier_Symbol"],
    "94 1 71 6 4 3 521.4 12.14 5.7 1 1.17 117 14.2 1282 5940 1.3 11.3 13.3 13.3 13.2 4252.2 "
    ++ "30307.23 9.2 103.2 976 14.2 20550.17 891 1 162 62487.5"⟩,
  ⟨["So", "Other_Symbol"],
    "166 2 4 1 977 266.2 127.2 206 10 19.2 247 515 373 130.6 1 132 207 41 391.3 15 1.3 2.6 20 1 1 "
    ++ "133.8 1.6 1.2 5.4 197.2 752.10 723 722 157.34 353.10 9.9 1411.2 1.4 1.2 10 1.2 6.6 1 1 1 4 "
    ++ "11.2 14 1.2 1 58.2 9.5 2.4 1.2 1.2 1.7 1.31 2.2 1 1.31 268.8 4.20 2.7 2.81 1.30 25.40 6.69 "
    ++ "25.11 81.78 22.183 1.9 1.54 8.111 1.248 44.44 64.256 512.48 21.2 6.39 2.32 1.105 229.6 357.2 "
    ++ "46.26 1.89 12.214 26.12 8 13.2 12 21.2 6.2 336.2 4.10 32.36 28.31 11.30 8 15.32 10.39 15.320 "
    ++ "6592.64 22160.55 865.4 10.2 1 573.3 21190.16 127 45.3 484 3 4.2 13.2 313.9 57.17 2.3 1.13 3 "
    ++ "47.45 1658.2 591 3190 2197.8 4.17 19274.4 5 20822 4787.116 60.246 10.39 2.60 5.3 22.2 7.30 "
    ++ "4.61 21.66 3 186.87 1193.512 55.4 50.8 1.14 1.2 1736 2908 129 721.44 4.100 12.15 2.15 1.15 "
    ++ "1.37 23.161 56.29 13.44 4.9 7.2 14.6 154.251 5.728 4.17 3.13 3.119 4.95 6.12 4 15.12 4.56 "
    ++ "8.10 6.40 8.30 2.2 78.340 12.14 2.13 3.9 7.46 1.7 8.14 4.9 7.9 7.147 1.55"⟩,
  ⟨["Zs", "Space_Separator"],
    "32 127 5599 2431.11 36 47 4000"⟩,
  ⟨["Zl", "Line_Separator"],
    "8232"⟩,
  ⟨["Zp", "Paragraph_Separator"],
    "8233"⟩,
  ⟨["Cc", "Control", "Cntrl"],
    "0.32 95.33"⟩,
  ⟨["Cf", "Format"],
    "173 1362.6 22 192 49 384.2 80 3883 2044.5 26.5 49.5 1.10 56975 249.3 4289 15 9058.16 34912.4 "
    ++ "5327.8 798342 30.96"⟩,
  ⟨["Co", "Private_Use"],
    "57344.6400 919296.65534 2.65534"⟩,
  ⟨["Cn", "Unassigned"],
    "888.2 6.4 7 1 20 397 38.2 50.2 3 55.8 27.4 6.11 270 60.2 101.14 59.2 49.2 15 28.2 1 11.5 31 "
    ++ "2.6 236 8.2 2.2 22 7 1.3 4.2 9.2 2.2 4.8 1.4 2 5.2 25.2 3 6.4 2.2 22 7 2 2 2.2 1 5.4 2.2 3.3 "
    ++ "1.7 4 1.7 17.10 3 9 3 22 7 2 5.2 10 3 3.2 1.15 4.2 12.7 7 3 8.2 2.2 22 7 2 5.2 9.2 2.2 3.7 "
    ++ "3.4 2 5.2 18.10 2 6.3 3 4.3 2 1 2.3 2.3 3.3 12.4 5.3 3 4.2 1.6 1.14 21.5 13 3 23 16.2 9 3 "
    ++ "4.7 2 3.2 1.2 4.2 10.7 22 3 23 10 5.2 9 3 4.7 2.6 2 4.2 10 3.12 13 3 51 3 6.4 16.2 26 3 18.3 "
    ++ "24 9 1.2 7.3 1.4 6 1 8.6 10.2 3.12 58.4 29.37 2 1 5 24 1 23.2 5 1 7 10.2 4.32 72 36.4 39 36 "
    ++ "15 13.37 198 1.5 1.2 377 4.2 7 1 4.2 41 4.2 33 4.2 7 1 4.2 15 57 4.2 67.2 32.3 26.6 86.2 6.2 "
    ++ "669.3 89.7 22.9 24.9 20.12 13 3 2.12 94.2 10.6 10.6 26.6 89.7 43.5 70.10 31 12.4 12.4 1.3 "
    ++ "42.2 5.11 44.4 26.6 11.3 62.2 65 29.2 11.6 10.6 14.2 31.49 77.3 47 116.8 60.3 15.3 60.7 43.2 "
    ++ "11.8 43.5 534.2 6.2 38.2 6.2 8 1 1 1 31.2 53 15 14.2 6 19.2 3 9 101 12.2 27 13.3 33.15 33.15 "
    ++ "140.4 663.25 11.21 1812.2 32 349.5 45 1.5 1.2 56.7 2.14 24.9 7 7 7 7 7 7 7 7 126.34 26 89.12 "
    ++ "214.26 12.4 64 86.2 103.5 43 94 84.12 47 29293.3 55.9 348.20 184.8 203.5 2 1 5.24 59.3 10.6 "
    ++ "56.8 70.8 12.6 116.11 30.3 78 11.4 33 55.9 14.2 10.2 103.24 28.10 6.2 6.2 6.9 7 7 60.4 126.2 "
    ++ "10.6 11172.12 23.4 49.4 8814.2 106.38 7.12 5.5 26 5 1 2 2 125.16 445.2 54.7 1.32 42.6 51 19 "
    ++ "4.4 5 135.2 1 190.3 6.2 6.2 6.2 3.3 7 7.10 5.2 12 26 19 2 15.2 14.34 123.5 3.4 45.3 88 13.3 "
    ++ "1.47 46.130 29.3 49.15 28.4 36.9 30.5 43.5 30 37.4 14.42 158.2 10.6 36.4 36.4 40.8 52.11 12 "
    ++ "15 7 2 11 15 7 2.67 311.9 22.10 8.24 6 42 9.69 6.2 1 44 2.3 1.2 23 72.8 9.48 19 2.5 33.3 "
    ++ "27.5 1.64 56.4 20.2 50 2.5 8 3 29.2 3.4 10.7 9.7 64.32 39.4 12.9 54.3 29.2 27.5 26.7 4.12 "
    ++ "7.80 73.55 51.13 51.7 46.8 10.294 31 42 3.2 2.75 43.8 42.22 26.38 28.20 23.9 78.4 36.9 68.10 "
    ++ "1.2 25.7 10.6 53 18.8 39.9 96 20.11 18 47.62 7 1 4 15 11.6 59.5 10.6 4 8.2 2.2 22 7 2 5 10.2 "
    ++ "2.2 3.2 1.6 1.5 7.2 7.3 5.139 92 5.30 72.8 10.166 54.2 38.34 69.11 10.6 13.19 58.6 10.54 "
    ++ "27.2 15.4 23.185 60.100 83.12 8.2 1.2 8 2 30 2.2 12.9 10.70 8.2 46.2 11.27 72.8 83.13 73.7 "
    ++ "10.246 9 45 14.10 29.3 32.2 22 14.73 7 2 44.3 1 2 9.8 10.6 6 2 37 2 6.7 10.310 25.7 17 41.3 "
    ++ "28.86 1.15 50.13 923.102 111 5.11 196.2636 99.13 1110.4010 583.8633 569.7 31 10.4 81 10.6 "
    ++ "30.2 6.10 70.10 10 7 21.5 19.688 91.101 75.4 57.7 17.64 5.11 2.14 6136.8 1238.42 9.8935 4 7 "
    ++ "2 291.15 1.29 3.2 1.14 4.8 396.2308 107.5 13.3 9.7 10.2 8.4700 46.2 23.9 116.60 246.10 39.2 "
    ++ "194.21 70.122 20.12 20.12 87.9 25.135 85 71 2.2 1.2 2.2 4 12 1 7 65 4.2 8 7 28 4 5 1.3 7 "
    ++ "340.2 292.2 702.15 5 15.1104 31.6 6.213 7 17.2 7 2 5.5 62.33 1.112 45.3 14.2 10.4 2.320 "
    ++ "31.17 58.5 1.464 42.742 7 4 2 15 197.2 16.41 76.4 10.4 2.785 68.76 61.194 4 27 2 1.2 1 10 4 "
    ++ "1 1.6 1.4 1 1 1 3 2 1.2 1 1 1 1 1 2 1.2 4 7 4 4 1 10 17.5 3 5 17.52 2.270 44.4 100.12 15.2 "
    ++ "15 15 37.10 174.56 29.13 44.4 9.7 2.14 6.154 984.4 17.3 13.3 119.4 95.6 12.4 1.15 12.4 56.8 "
    ++ "10.6 40.8 30.2 2.78 340.12 14.2 13.3 9.7 46 7.8 14.4 9.7 9.7 147 55.37 10.1030 42720.32 "
    ++ "4154.6 222.2 5762.14 7473.3103 542.1506 4939.5 4192.711761 1.30 96.128 240.65040 65534.2 "
    ++ "65534.2"⟩]

/-- The scripts. -/
def scriptRows : List TableRow := [
  ⟨["Adlm", "Adlam"],
    "125184.76 4.10 4.2"⟩,
  ⟨["Aghb", "Caucasian_Albanian"],
    "66864.52 11"⟩,
  ⟨["Ahom", "Ahom"],
    "71424.27 2.15 4.23"⟩,
  ⟨["Arab", "Arabic"],
    "1536.5 1.6 1.14 1.3 1.32 1.10 11.26 1.108 1.34 80.48 240.31 1.2 6.74 1.29 62032.115 16.363 "
    ++ "2.80 2.54 7 32.16 112.5 1.135 3939.31 126.3 57088.4 1.27 1.2 1 2 1.10 1.4 1 1 6 4 1 1 1.3 "
    ++ "1.2 1 2 1 1 1 1 1.2 1 2.4 1.7 1.4 1.4 1 1.10 1.17 5.3 1.5 1.17 52.2"⟩,
  ⟨["Armi", "Imperial_Aramaic"],
    "67648.22 1.9"⟩,
  ⟨["Armn", "Armenian"],
    "1329.38 2.50 2.3 62851.5"⟩,
  ⟨["Avst", "Avestan"],
    "68352.54 3.7"⟩,
  ⟨["Bali", "Balinese"],
    "6912.77 3.47"⟩,
  ⟨["Bamu", "Bamum"],
    "42656.88 49416.569"⟩,
  ⟨["Bass", "Bassa_Vah"],
    "92880.30 2.6"⟩,
  ⟨["Batk", "Batak"],
    "7104.52 8.4"⟩,
  ⟨["Beng", "Bengali"],
    "2432.4 1.8 2.2 2.22 1.7 1 3.4 2.9 2.2 2.4 8 4.2 1.5 2.25"⟩,
  ⟨["Bhks", "Bhaiksuki"],
    "72704.9 1.45 1.14 10.29"⟩,
  ⟨["Bopo", "Bopomofo"],
    "746.2 11801.43 112.32"⟩,
  ⟨["Brah", "Brahmi"],
    "69632.78 4.36 9"⟩,
  ⟨["Brai", "Braille"],
    "10240.256"⟩,
  ⟨["Bugi", "Buginese"],
    "6656.28 2.2"⟩,
  ⟨["Buhd", "Buhid"],
    "5952.20"⟩,
  ⟨["Cakm", "Chakma"],
    "69888.53 1.18"⟩,
  ⟨["Cans", "Canadian_Aboriginal"],
    "5120.640 560.70 65978.16"⟩,
  ⟨["Cari", "Carian"],
    "66208.49"⟩,
  ⟨["Cham", "Cham"],
    "43520.55 9.14 2.10 2.4"⟩,
  ⟨["Cher", "Cherokee"],
    "5024.86 2.6 38770.80"⟩,
  ⟨["Chrs", "Chorasmian"],
    "69552.28"⟩,
  ⟨["Copt", "Coptic", "Qaac"],
    "994.14 10384.116 5.7"⟩,
  ⟨["Cpmn", "Cypro_Minoan"],
    "77712.99"⟩,
  ⟨["Cprt", "Cypriot"],
    "67584.6 2 1.44 1.2 3 2"⟩,
  ⟨["Cyrl", "Cyrillic"],
    "1024.133 2.169 5968.9 162 76 4199.32 30784.96 22414.2 57856.62 33"⟩,
  ⟨["Deva", "Devanagari"],
    "2304.81 4.15 2.26 40800.32 29184.10"⟩,
  ⟨["Diak", "Dives_Akuru"],
    "71936.7 2 2.8 1.2 1.30 1.2 2.12 9.10"⟩,
  ⟨["Dogr", "Dogra"],
    "71680.60"⟩,
  ⟨["Dsrt", "Deseret"],
    "66560.80"⟩,
  ⟨["Dupl", "Duployan"],
    "113664.107 5.13 3.9 7.10 2.4"⟩,
  ⟨["Egyp", "Egyptian_Hieroglyphs"],
    "77824.1110"⟩,
  ⟨["Elba", "Elbasan"],
    "66816.40"⟩,
  ⟨["Elym", "Elymaic"],
    "69600.23"⟩,
  ⟨["Ethi", "Ethiopic"],
    "4608.73 1.4 2.7 1 1.4 2.41 1.4 2.33 1.4 2.7 1 1.4 2.15 1.57 1.4 2.67 2.32 3.26 6630.23 9.7 "
    ++ "1.7 1.7 1.7 1.7 1.7 1.7 1.7 32034.6 2.6 2.6 9.7 1.7 81073.7 1.4 1.2 1.15"⟩,
  ⟨["Geor", "Georgian"],
    "4256.38 1 5 2.43 1.4 2960.43 2.3 4160.38 1 5"⟩,
  ⟨["Glag", "Glagolitic"],
    "11264.96 111520.7 1.17 2.7 1.2 1.5"⟩,
  ⟨["Gong", "Gunjala_Gondi"],
    "73056.6 1.2 1.37 1.2 1.6 7.10"⟩,
  ⟨["Gonm", "Masaram_Gondi"],
    "72960.7 1.2 1.44 3 1.2 1.9 8.10"⟩,
  ⟨["Goth", "Gothic"],
    "66352.27"⟩,
  ⟨["Gran", "Grantha"],
    "70400.4 1.8 2.2 2.22 1.7 1.2 1.5 2.9 2.2 2.3 2 6 5.7 2.7 3.5"⟩,
  ⟨["Grek", "Greek"],
    "880.4 1.3 2.4 1 4 1 1.3 1 1.20 1.63 14.16 6438.5 50.5 4.5 84 320.22 2.6 2.38 2.6 2.8 1 1 1 "
    ++ "1.31 2.53 1.15 1.14 2.6 1.19 2.3 1.9 295 35390 21978.79 17 53343.70"⟩,
  ⟨["Gujr", "Gujarati"],
    "2689.3 1.9 1.3 1.22 1.7 1.2 1.5 2.10 1.3 1.3 2 15.4 2.12 7.7"⟩,
  ⟨["Guru", "Gurmukhi"],
    "2561.3 1.6 4.2 2.22 1.7 1.2 1.2 1.2 2 1.5 4.2 2.3 3 7.4 1 7.17"⟩,
  ⟨["Hang", "Hangul"],
    "4352.256 7726.2 257.94 113.31 65.31 30433.29 643.11172 12.23 4.49 10148.31 3.6 2.6 2.6 2.3"⟩,
  ⟨["Hani", "Han"],
    "11904.26 1.89 12.214 47 1 25.9 14.4 964.6592 64.20992 22784.366 2.106 29960.2 12.2 "
    ++ "36878.42720 32.4154 6.222 2.5762 14.7473 3103.542 1506.4939 5.4192"⟩,
  ⟨["Hano", "Hanunoo"],
    "5920.21"⟩,
  ⟨["Hatr", "Hatran"],
    "67808.19 1.2 5.5"⟩,
  ⟨["Hebr", "Hebrew"],
    "1425.55 8.27 4.6 62760.26 1.5 1 1.2 1.2 1.10"⟩,
  ⟨["Hira", "Hiragana"],
    "12353.86 6.3 98145.287 18 29.3 16557"⟩,
  ⟨["Hluw", "Anatolian_Hieroglyphs"],
    "82944.583"⟩,
  ⟨["Hmng", "Pahawh_Hmong"],
    "92928.70 10.10 1.7 1.21 5.19"⟩,
  ⟨["Hmnp", "Nyiakeng_Puachue_Hmong"],
    "123136.45 3.14 2.10 4.2"⟩,
  ⟨["Hung", "Old_Hungarian"],
    "68736.51 13.51 7.6"⟩,
  ⟨["Ital", "Old_Italic"],
    "66304.36 9.3"⟩,
  ⟨["Java", "Javanese"],
    "43392.78 2.10 4.2"⟩,
  ⟨["Kali", "Kayah_Li"],
    "43264.46 1"⟩,
  ⟨["Kana", "Katakana"],
    "12449.90 2.3 240.16 208.47 1.88 52238.10 1.45 45138.4 1.7 1.2 1 287.3 50 14.4"⟩,
  ⟨["Kawi", "Kawi"],
    "73472.17 1.41 3.28"⟩,
  ⟨["Khar", "Kharoshthi"],
    "68096.4 1.2 5.8 1.3 1.29 2.3 4.10 7.9"⟩,
  ⟨["Khmr", "Khmer"],
    "6016.94 2.10 6.10 486.32"⟩,
  ⟨["Khoj", "Khojki"],
    "70144.18 1.47"⟩,
  ⟨["Kits", "Khitan_Small_Script"],
    "94180 6939.470"⟩,
  ⟨["Knda", "Kannada"],
    "3200.13 1.3 1.23 1.10 1.5 2.9 1.3 1.4 7.2 6.2 1.4 2.10 1.3"⟩,
  ⟨["Kthi", "Kaithi"],
    "69760.67 10"⟩,
  ⟨["Lana", "Tai_Tham"],
    "6688.63 1.29 2.11 6.10 6.14"⟩,
  ⟨["Laoo", "Lao"],
    "3713.2 1 1.5 1.24 1 1.23 2.5 1 1.7 1.10 2.4"⟩,
  ⟨["Latn", "Latin"],
    "65.26 6.26 47 15 5.23 1.31 1.449 39.5 6683.38 6.49 5.4 5.13 1.70 65.256 369 13 16.13 141.2 6 "
    ++ "27 17.41 2775.32 31394.102 3.64 5.2 1 1.5 24.14 816.43 1.9 1.4 20374.7 1050.26 6.26 2085.6 "
    ++ "1.42 1.9 55109.31 6.6"⟩,
  ⟨["Lepc", "Lepcha"],
    "7168.56 3.15 3.3"⟩,
  ⟨["Limb", "Limbu"],
    "6400.31 1.12 4.12 4 3.12"⟩,
  ⟨["Lina", "Linear_A"],
    "67072.311 9.22 10.8"⟩,
  ⟨["Linb", "Linear_B"],
    "65536.12 1.26 1.19 1.2 1.15 2.14 34.123"⟩,
  ⟨["Lisu", "Lisu"],
    "42192.48 31408"⟩,
  ⟨["Lyci", "Lycian"],
    "66176.29"⟩,
  ⟨["Lydi", "Lydian"],
    "67872.26 5"⟩,
  ⟨["Mahj", "Mahajani"],
    "69968.39"⟩,
  ⟨["Maka", "Makasar"],
    "73440.25"⟩,
  ⟨["Mand", "Mandaic"],
    "2112.28 2"⟩,
  ⟨["Mani", "Manichaean"],
    "68288.39 4.12"⟩,
  ⟨["Marc", "Marchen"],
    "72816.32 2.22 1.14"⟩,
  ⟨["Medf", "Medefaidrin"],
    "93760.91"⟩,
  ⟨["Mend", "Mende_Kikakui"],
    "124928.197 2.16"⟩,
  ⟨["Merc", "Meroitic_Cursive"],
    "68000.24 4.20 2.46"⟩,
  ⟨["Mero", "Meroitic_Hieroglyphs"],
    "67968.32"⟩,
  ⟨["Mlym", "Malayalam"],
    "3328.13 1.3 1.51 1.3 1.6 4.16 2.26"⟩,
  ⟨["Modi", "Modi"],
    "71168.69 11.10"⟩,
  ⟨["Mong", "Mongolian"],
    "6144.2 2 1.20 6.89 7.43 64949.13"⟩,
  ⟨["Mroo", "Mro"],
    "92736.31 1.10 4.2"⟩,
  ⟨["Mtei", "Meetei_Mayek"],
    "43744.23 201.46 2.10"⟩,
  ⟨["Mult", "Multani"],
    "70272.7 1 1.4 1.15 1.11"⟩,
  ⟨["Mymr", "Myanmar"],
    "4096.160 39232.31 97.32"⟩,
  ⟨["Nagm", "Nag_Mundari"],
    "124112.42"⟩,
  ⟨["Nand", "Nandinagari"],
    "72096.8 2.46 2.11"⟩,
  ⟨["Narb", "Old_North_Arabian"],
    "68224.32"⟩,
  ⟨["Nbat", "Nabataean"],
    "67712.31 8.9"⟩,
  ⟨["Newa", "Newa"],
    "70656.92 1.5"⟩,
  ⟨["Nkoo", "Nko"],
    "1984.59 2.3"⟩,
  ⟨["Nshu", "Nushu"],
    "94177 16782.396"⟩,
  ⟨["Ogam", "Ogham"],
    "5760.29"⟩,
  ⟨["Olck", "Ol_Chiki"],
    "7248.48"⟩,
  ⟨["Orkh", "Old_Turkic"],
    "68608.73"⟩,
  ⟨["Orya", "Oriya"],
    "2817.3 1.8 2.2 2.22 1.7 1.2 1.5 2.9 2.2 2.3 7.3 4.2 1.5 2.18"⟩,
  ⟨["Osge", "Osage"],
    "66736.36 4.36"⟩,
  ⟨["Osma", "Osmanya"],
    "66688.30 2.10"⟩,
  ⟨["Ougr", "Old_Uyghur"],
    "69488.26"⟩,
  ⟨["Palm", "Palmyrene"],
    "67680.32"⟩,
  ⟨["Pauc", "Pau_Cin_Hau"],
    "72384.57"⟩,
  ⟨["Perm", "Old_Permic"],
    "66384.43"⟩,
  ⟨["Phag", "Phags_Pa"],
    "43072.56"⟩,
  ⟨["Phli", "Inscriptional_Pahlavi"],
    "68448.19 5.8"⟩,
  ⟨["Phlp", "Psalter_Pahlavi"],
    "68480.18 7.4 12.7"⟩,
  ⟨["Phnx", "Phoenician"],
    "67840.28 3"⟩,
  ⟨["Plrd", "Miao"],
    "93952.75 4.57 7.17"⟩,
  ⟨["Prti", "Inscriptional_Parthian"],
    "68416.22 2.8"⟩,
  ⟨["Rjng", "Rejang"],
    "43312.36 11"⟩,
  ⟨["Rohg", "Hanifi_Rohingya"],
    "68864.40 8.10"⟩,
  ⟨["Runr", "Runic"],
    "5792.75 3.11"⟩,
  ⟨["Samr", "Samaritan"],
    "2048.46 2.15"⟩,
  ⟨["Sarb", "Old_South_Arabian"],
    "68192.32"⟩,
  ⟨["Saur", "Saurashtra"],
    "43136.70 8.12"⟩,
  ⟨["Sgnw", "SignWriting"],
    "120832.652 15.5 1.15"⟩,
  ⟨["Shaw", "Shavian"],
    "66640.48"⟩,
  ⟨["Shrd", "Sharada"],
    "70016.96"⟩,
  ⟨["Sidd", "Siddham"],
    "71040.54 2.38"⟩,
  ⟨["Sind", "Khudawadi"],
    "70320.59 5.10"⟩,
  ⟨["Sinh", "Sinhala"],
    "3457.3 1.18 3.24 1.9 1 2.7 3 4.6 1 1.8 6.10 2.3 66540.20"⟩,
  ⟨["Sogd", "Sogdian"],
    "69424.42"⟩,
  ⟨["Sogo", "Old_Sogdian"],
    "69376.40"⟩,
  ⟨["Sora", "Sora_Sompeng"],
    "69840.25 7.10"⟩,
  ⟨["Soyo", "Soyombo"],
    "72272.83"⟩,
  ⟨["Sund", "Sundanese"],
    "7040.64 256.8"⟩,
  ⟨["Sylo", "Syloti_Nagri"],
    "43008.45"⟩,
  ⟨["Syrc", "Syriac"],
    "1792.14 1.60 2.3 272.11"⟩,
  ⟨["Tagb", "Tagbanwa"],
    "5984.13 1.3 1.2"⟩,
  ⟨["Takr", "Takri"],
    "71296.58 6.10"⟩,
  ⟨["Tale", "Tai_Le"],
    "6480.30 2.5"⟩,
  ⟨["Talu", "New_Tai_Lue"],
    "6528.44 4.26 6.11 3.2"⟩,
  ⟨["Taml", "Tamil"],
    "2946.2 1.6 3.3 1.4 3.2 1 1.2 3.2 3.3 3.12 4.5 3.3 1.4 2 6 14.21 70597.50 13"⟩,
  ⟨["Tang", "Tangut"],
    "94176 31.6136 8.768 512.9"⟩,
  ⟨["Tavt", "Tai_Viet"],
    "43648.67 24.5"⟩,
  ⟨["Telu", "Telugu"],
    "3072.13 1.3 1.23 1.16 2.9 1.3 1.4 7.2 1.3 2 2.4 2.10 7.9"⟩,
  ⟨["Tfng", "Tifinagh"],
    "11568.56 7.2 14"⟩,
  ⟨["Tglg", "Tagalog"],
    "5888.22 9"⟩,
  ⟨["Thaa", "Thaana"],
    "1920.50"⟩,
  ⟨["Thai", "Thai"],
    "3585.58 5.28"⟩,
  ⟨["Tibt", "Tibetan"],
    "3840.72 1.36 4.39 1.36 1.15 1.7 4.2"⟩,
  ⟨["Tirh", "Tirhuta"],
    "70784.72 8.10"⟩,
  ⟨["Tnsa", "Tangsa"],
    "92784.79 1.10"⟩,
  ⟨["Toto", "Toto"],
    "123536.31"⟩,
  ⟨["Ugar", "Ugaritic"],
    "66432.30 1"⟩,
  ⟨["Vaii", "Vai"],
    "42240.300"⟩,
  ⟨["Vith", "Vithkuqi"],
    "66928.11 1.15 1.7 1.2 1.11 1.15 1.7 1.2"⟩,
  ⟨["Wara", "Warang_Citi"],
    "71840.83 12"⟩,
  ⟨["Wcho", "Wancho"],
    "123584.58 5"⟩,
  ⟨["Xpeo", "Old_Persian"],
    "66464.36 4.14"⟩,
  ⟨["Xsux", "Cuneiform"],
    "73728.922 102.111 1.5 11.196"⟩,
  ⟨["Yezi", "Yezidi"],
    "69248.42 1.3 2.2"⟩,
  ⟨["Yiii", "Yi"],
    "40960.1165 3.55"⟩,
  ⟨["Zanb", "Zanabazar_Square"],
    "72192.72"⟩,
  ⟨["Zinh", "Inherited", "Qaai"],
    "768.112 277.2 452.11 26 736.4 4443.31 513.3 1.13 1.7 4 6 3.2 198.64 524.2 194.33 3897.4 "
    ++ "107.2 52581.16 16.14 975 226 4186 48068.46 2.23 544.3 17.8 2.7 30.4 798546.240"⟩,
  ⟨["Zyyy", "Common"],
    "0.65 26.6 26.47 1.15 1.5 23 31 449.39 5.5 2.20 116 9 6 1 637 6 14 3 32 156 516 129.2 1241 "
    ++ "405.4 290 1519.3 71.2 203.2 1 1229 13 7.4 1.6 1.3 2 773.12 2.87 1.11 3.11 1.15 17.33 63.38 "
    ++ "1.3 2.6 1.27 1.17 41.3 4.663 25.11 21.928 256.628 2.32 1.105 512.94 402.12 4.5 1 1.25 15.8 "
    ++ "4.4 91.2 3 90.2 147.16 32.36 60.64 31.81 47 88.168 6592.64 22784.34 102.3 165.10 244 160 395 "
    ++ "14.2 20946.2 208.10 22.35 1.19 1.4 147 1.32 26.6 26.11 10 45.2 64.7 1.7 10.5 258.3 4.45 3.9 "
    ++ "80.13 51.45 228.27 47524.4 4780.116 60.246 10.39 2.62 3.17 8.2 7.30 4.61 213.20 12.20 12.87 "
    ++ "9.25 135.85 1.71 1.2 2 2.2 2.4 1.12 1 1.7 1.65 1.4 2.8 1.7 1.28 1.4 1.5 1 3.7 1.340 2.292 "
    ++ "2.50 5233.68 76.61 706.44 4.100 12.15 2.15 1.15 1.37 10.174 56.26 1.2 13.44 4.9 7.2 14.6 "
    ++ "154.984 4.17 3.13 3.119 4.95 6.12 4 15.12 4.56 8.10 6.40 8.30 2.2 78.340 12.14 2.13 3.9 7.46 "
    ++ "1.7 8.14 4.9 7.9 7.147 1.55 37.10 787463 30.96"⟩,
  ⟨["Zzzz", "Unknown"],
    "888.2 6.4 7 1 20 397 38.2 50.2 3 55.8 27.4 6.11 270 60.2 101.14 59.2 49.2 15 28.2 1 11.5 31 "
    ++ "2.6 236 8.2 2.2 22 7 1.3 4.2 9.2 2.2 4.8 1.4 2 5.2 25.2 3 6.4 2.2 22 7 2 2 2.2 1 5.4 2.2 3.3 "
    ++ "1.7 4 1.7 17.10 3 9 3 22 7 2 5.2 10 3 3.2 1.15 4.2 12.7 7 3 8.2 2.2 22 7 2 5.2 9.2 2.2 3.7 "
    ++ "3.4 2 5.2 18.10 2 6.3 3 4.3 2 1 2.3 2.3 3.3 12.4 5.3 3 4.2 1.6 1.14 21.5 13 3 23 16.2 9 3 "
    ++ "4.7 2 3.2 1.2 4.2 10.7 22 3 23 10 5.2 9 3 4.7 2.6 2 4.2 10 3.12 13 3 51 3 6.4 16.2 26 3 18.3 "
    ++ "24 9 1.2 7.3 1.4 6 1 8.6 10.2 3.12 58.4 29.37 2 1 5 24 1 23.2 5 1 7 10.2 4.32 72 36.4 39 36 "
    ++ "15 13.37 198 1.5 1.2 377 4.2 7 1 4.2 41 4.2 33 4.2 7 1 4.2 15 57 4.2 67.2 32.3 26.6 86.2 6.2 "
    ++ "669.3 89.7 22.9 24.9 20.12 13 3 2.12 94.2 10.6 10.6 26.6 89.7 43.5 70.10 31 12.4 12.4 1.3 "
    ++ "42.2 5.11 44.4 26.6 11.3 62.2 65 29.2 11.6 10.6 14.2 31.49 77.3 47 116.8 60.3 15.3 60.7 43.2 "
    ++ "11.8 43.5 534.2 6.2 38.2 6.2 8 1 1 1 31.2 53 15 14.2 6 19.2 3 9 101 12.2 27 13.3 33.15 33.15 "
    ++ "140.4 663.25 11.21 1812.2 32 349.5 45 1.5 1.2 56.7 2.14 24.9 7 7 7 7 7 7 7 7 126.34 26 89.12 "
    ++ "214.26 12.4 64 86.2 103.5 43 94 84.12 47 29293.3 55.9 348.20 184.8 203.5 2 1 5.24 59.3 10.6 "
    ++ "56.8 70.8 12.6 116.11 30.3 78 11.4 33 55.9 14.2 10.2 103.24 28.10 6.2 6.2 6.9 7 7 60.4 126.2 "
    ++ "10.6 11172.12 23.4 49.8452 366.2 106.38 7.12 5.5 26 5 1 2 2 125.16 445.2 54.7 1.32 42.6 51 "
    ++ "19 4.4 5 135.2 1 190.3 6.2 6.2 6.2 3.3 7 7.10 5.2 12 26 19 2 15.2 14.34 123.5 3.4 45.3 88 "
    ++ "13.3 1.47 46.130 29.3 49.15 28.4 36.9 30.5 43.5 30 37.4 14.42 158.2 10.6 36.4 36.4 40.8 "
    ++ "52.11 12 15 7 2 11 15 7 2.67 311.9 22.10 8.24 6 42 9.69 6.2 1 44 2.3 1.2 23 72.8 9.48 19 2.5 "
    ++ "33.3 27.5 1.64 56.4 20.2 50 2.5 8 3 29.2 3.4 10.7 9.7 64.32 39.4 12.9 54.3 29.2 27.5 26.7 "
    ++ "4.12 7.80 73.55 51.13 51.7 46.8 10.294 31 42 3.2 2.75 43.8 42.22 26.38 28.20 23.9 78.4 36.9 "
    ++ "68.10 1.2 25.7 10.6 53 18.8 39.9 96 20.11 18 47.62 7 1 4 15 11.6 59.5 10.6 4 8.2 2.2 22 7 2 "
    ++ "5 10.2 2.2 3.2 1.6 1.5 7.2 7.3 5.139 92 5.30 72.8 10.166 54.2 38.34 69.11 10.6 13.19 58.6 "
    ++ "10.54 27.2 15.4 23.185 60.100 83.12 8.2 1.2 8 2 30 2.2 12.9 10.70 8.2 46.2 11.27 72.8 83.13 "
    ++ "73.7 10.246 9 45 14.10 29.3 32.2 22 14.73 7 2 44.3 1 2 9.8 10.6 6 2 37 2 6.7 10.310 25.7 17 "
    ++ "41.3 28.86 1.15 50.13 923.102 111 5.11 196.2636 99.13 1110.4010 583.8633 569.7 31 10.4 81 "
    ++ "10.6 30.2 6.10 70.10 10 7 21.5 19.688 91.101 75.4 57.7 17.64 5.11 2.14 6136.8 1238.42 9.8935 "
    ++ "4 7 2 291.15 1.29 3.2 1.14 4.8 396.2308 107.5 13.3 9.7 10.2 8.4700 46.2 23.9 116.60 246.10 "
    ++ "39.2 194.21 70.122 20.12 20.12 87.9 25.135 85 71 2.2 1.2 2.2 4 12 1 7 65 4.2 8 7 28 4 5 1.3 "
    ++ "7 340.2 292.2 702.15 5 15.1104 31.6 6.213 7 17.2 7 2 5.5 62.33 1.112 45.3 14.2 10.4 2.320 "
    ++ "31.17 58.5 1.464 42.742 7 4 2 15 197.2 16.41 76.4 10.4 2.785 68.76 61.194 4 27 2 1.2 1 10 4 "
    ++ "1 1.6 1.4 1 1 1 3 2 1.2 1 1 1 1 1 2 1.2 4 7 4 4 1 10 17.5 3 5 17.52 2.270 44.4 100.12 15.2 "
    ++ "15 15 37.10 174.56 29.13 44.4 9.7 2.14 6.154 984.4 17.3 13.3 119.4 95.6 12.4 1.15 12.4 56.8 "
    ++ "10.6 40.8 30.2 2.78 340.12 14.2 13.3 9.7 46 7.8 14.4 9.7 9.7 147 55.37 10.1030 42720.32 "
    ++ "4154.6 222.2 5762.14 7473.3103 542.1506 4939.5 4192.711761 1.30 96.128 240.196112"⟩]

/-- Properties that a code point has or has not. -/
def binaryRows : List TableRow := [
  ⟨["Alpha", "Alphabetic"],
    "65.26 6.26 47 10 4 5.23 1.31 1.458 4.12 14.5 7 1 86 42.5 1.2 2.4 1 6 1.3 1 1.20 1.83 1.139 "
    ++ "8.166 1.38 2 6.41 39.14 1 1.2 1.2 1 8.27 4.4 29.11 5.56 1.7 14.102 1.8 4.8 4.3 10.3 2 16.48 "
    ++ "13.101 24.33 9.2 4 5.24 2.19 19.25 7.11 5.24 1.6 17.42 10.12 3.7 6.76 1.16 1.3 4.15 13.19 "
    ++ "1.8 2.2 2.22 1.7 1 3.4 3.8 2.2 2.2 1 8 4.2 1.5 12.2 10 4.3 1.6 4.2 2.22 1.7 1.2 1.2 1.2 4.5 "
    ++ "4.2 2.2 4 7.4 1 17.6 11.3 1.9 1.3 1.22 1.7 1.2 1.5 3.9 1.3 1.2 3 15.4 21.4 4.3 1.8 2.2 2.22 "
    ++ "1.7 1.2 1.5 3.8 2.2 2.2 9.2 4.2 1.5 13 16.2 1.6 3.3 1.4 3.2 1 1.2 3.2 3.3 3.12 4.5 3.3 1.3 3 "
    ++ "6 40.13 1.3 1.23 1.16 3.8 1.3 1.3 8.2 1.3 2 2.4 28.4 1.8 1.3 1.23 1.10 1.5 3.8 1.3 1.3 8.2 "
    ++ "6.2 1.4 13.3 12.13 1.3 1.41 2.8 1.3 1.3 1 5.4 7.5 22.6 1.3 1.18 3.24 1.9 1 2.7 8.6 1 1.8 "
    ++ "18.2 13.58 5.7 6 51.2 1 1.5 1.24 1 1.19 1.3 2.5 1 6 14.4 32 63.8 1.36 4.19 4.16 1.36 67.55 1 "
    ++ "2.5 16.64 10.4 2.38 1 5 2.43 1.333 1.4 2.7 1 1.4 2.41 1.4 2.33 1.4 2.7 1 1.4 2.15 1.57 1.4 "
    ++ "2.67 37.16 16.86 2.6 3.620 2.17 1.26 5.75 3.11 7.20 11.21 12.20 12.13 1.3 1.2 12.52 2.19 14 "
    ++ "4 67.89 7.43 5.70 10.31 1.12 4.9 23.30 2.5 11.44 4.26 54.28 4.63 2.20 50 23.2 11.3 49.52 "
    ++ "1.15 1.8 51.42 2.4 10.44 1.11 14.55 22.3 10.36 2.9 7.43 2.3 41.4 1.6 1.2 3 5.192 39.14 "
    ++ "11.278 2.6 2.38 2.6 2.8 1 1 1 1.31 2.53 1.7 1 3.3 1.7 3.4 2.6 4.13 5.3 1.7 116 13 16.13 101 "
    ++ "4 2.10 1 3.5 6 1 1 1.4 1.11 2.4 5.5 4 17.41 813.52 1814.229 6.4 3.2 12.38 1 5 2.56 7 16.23 "
    ++ "9.7 1.7 1.7 1.7 1.7 1.7 1.7 1.7 1.32 47 469.3 25.9 7.5 2.5 4.86 6.3 1.90 1.4 5.43 1.94 17.32 "
    ++ "48.16 512.6592 64.22157 67.46 2.269 3.16 10.2 20.47 5.8 3.113 39.9 2.103 2.64 5.2 1 1.5 "
    ++ "24.20 1.33 24.52 12.68 1 44.6 3 1.3 10.33 5.35 13.29 3.51 1.12 15 16.16 10.5 1.55 9.14 18.23 "
    ++ "3.69 1 1 24.3 2.16 2.4 11.6 2.6 2.6 9.7 1.7 1.43 1.14 6.123 21.11172 12.23 4.49 8452.366 "
    ++ "2.106 38.7 12.5 5.12 1.13 1.5 1 1.2 1.2 1.108 33.363 18.64 2.54 40.12 116.5 1.135 36.26 6.26 "
    ++ "11.89 3.6 2.6 2.6 2.3 35.12 1.26 1.19 1.2 1.15 2.14 34.123 69.53 267.29 3.49 47.32 13.30 "
    ++ "5.43 5.30 2.36 4.8 1.5 42.158 18.36 4.36 4.40 8.52 12.11 1.15 1.7 1.2 1.11 1.15 1.7 1.2 "
    ++ "67.311 9.22 10.8 24.6 1.42 1.9 69.6 2 1.44 1.2 3 2.23 10.23 9.31 65.19 1.2 10.22 10.26 70.56 "
    ++ "6.2 64.4 1.2 5.8 1.3 1.29 42.29 3.29 35.8 1.28 27.54 10.22 10.19 13.18 110.73 55.51 13.51 "
    ++ "13.40 344.42 1.2 3.2 78.29 10 8.22 42.18 46.21 27.23 9.70 43.5 10.57 9 13.25 23.51 17.4 8.35 "
    ++ "3 9.64 1.4 9.2 10 1 35.18 1.34 2 6.4 62.7 1 1.4 1.15 1.10 7.57 23.4 1.8 2.2 2.22 1.7 1.2 1.5 "
    ++ "3.8 2.2 2.2 3 6 5.7 156.66 1.3 1.4 20.3 30.66 2.2 1 184.54 2.7 25.6 34.63 1 3 59.54 2 71.27 "
    ++ "2.14 21.7 185.57 103.64 31.8 2 2.8 1.2 1.30 1.2 2.2 2.4 93.8 2.46 2.6 1 1.2 27.51 2.10 17.72 "
    ++ "5 18.73 263.9 1.45 1.7 1 49.30 2.22 1.14 73.7 1.2 1.44 3 1.2 1.3 1 2.2 24.6 1.2 1.37 1.2 1.4 "
    ++ "1 327.23 9.17 1.41 3.3 111 79.922 102.111 17.196 2636.97 15.1072 17.6 4025.583 8633.569 7.31 "
    ++ "17.79 17.30 18.48 16.4 31.21 5.19 688.64 128.75 4.57 7.17 64.2 1 12.2 14.6136 8.1238 42.9 "
    ++ "8935.4 1.7 1.2 1.291 15 29.3 2 14.4 8.396 2308.107 5.13 3.9 7.10 4 5985.85 1.71 1.2 2 2.2 "
    ++ "2.4 1.12 1 1.7 1.65 1.4 2.8 1.7 1.28 1.4 1.5 1 3.7 1.340 2.25 1.25 1.31 1.25 1.31 1.25 1.31 "
    ++ "1.25 1.31 1.25 1.8 1844.31 6.6 213.7 1.17 2.7 1.2 1.5 5.62 33 112.45 10.7 16 321.30 18.44 "
    ++ "484.28 756.7 1.4 1.2 1.15 1.197 59.68 3 3 1204.4 1.27 1.2 1 2 1.10 1.4 1 1 6 4 1 1 1.3 1.2 1 "
    ++ "2 1 1 1 1 1.2 1 2.4 1.7 1.4 1.4 1 1.10 1.17 5.3 1.5 1.17 628.26 6.26 6.26 3702.42720 32.4154 "
    ++ "6.222 2.5762 14.7473 3103.542 1506.4939 5.4192"⟩,
  ⟨["Upper", "Uppercase"],
    "65.26 101.23 1.7 33 1 1 1 1 1 1 1 1 1 1 1 1 1 1 1 1 1 1 1 1 1 1 1 1 1 1 1 2 1 1 1 1 1 1 1 2 "
    ++ "1 1 1 1 1 1 1 1 1 1 1 1 1 1 1 1 1 1 1 1 1 1 1.2 1 1 3.2 1 1.2 1.3 2.4 1.2 1.3 3.2 1.2 1 1 "
    ++ "1.2 1 2 1.2 1.3 1 1.2 3 7 2 2 2 1 1 1 1 1 1 1 2 1 1 1 1 1 1 1 1 2 2 1.3 1 1 1 1 1 1 1 1 1 1 "
    ++ "1 1 1 1 1 1 1 1 1 1 1 1 1 1 1 1 1 1 1 7.2 1.2 2 1.4 1 1 1 1 289 1 3 8 6 1.3 1 1.2 1.17 1.9 "
    ++ "35 2.3 3 1 1 1 1 1 1 1 1 1 1 1 5 2 1.2 2.51 48 1 1 1 1 1 1 1 1 1 1 1 1 1 1 1 1 9 1 1 1 1 1 1 "
    ++ "1 1 1 1 1 1 1 1 1 1 1 1 1 1 1 1 1 1 1 1 1.2 1 1 1 1 1 1 2 1 1 1 1 1 1 1 1 1 1 1 1 1 1 1 1 1 "
    ++ "1 1 1 1 1 1 1 1 1 1 1 1 1 1 1 1 1 1 1 1 1 1 1 1 1 1 1 1 1 1 2.38 2889.38 1 5 722.86 2202.43 "
    ++ "2.3 320 1 1 1 1 1 1 1 1 1 1 1 1 1 1 1 1 1 1 1 1 1 1 1 1 1 1 1 1 1 1 1 1 1 1 1 1 1 1 1 1 1 1 "
    ++ "1 1 1 1 1 1 1 1 1 1 1 1 1 1 1 1 1 1 1 1 1 1 1 1 1 1 1 1 1 1 1 1 9 1 1 1 1 1 1 1 1 1 1 1 1 1 "
    ++ "1 1 1 1 1 1 1 1 1 1 1 1 1 1 1 1 1 1 1 1 1 1 1 1 1 1 1 1 1 1 1 1 1 1 1 9.8 8.6 10.8 8.8 8.6 "
    ++ "11 1 1 1 8.8 72.4 12.4 12.4 12.5 11.4 262 4 3.3 2.3 2 3.5 6 1 1 1.4 2.4 10.2 5 26.16 19 "
    ++ "818.26 1840.48 48 1.3 2 1 1 1.4 1 2 8.3 1 1 1 1 1 1 1 1 1 1 1 1 1 1 1 1 1 1 1 1 1 1 1 1 1 1 "
    ++ "1 1 1 1 1 1 1 1 1 1 1 1 1 1 1 1 1 1 1 1 1 1 1 8 1 4 31053 1 1 1 1 1 1 1 1 1 1 1 1 1 1 1 1 1 "
    ++ "1 1 1 1 1 19 1 1 1 1 1 1 1 1 1 1 1 1 1 135 1 1 1 1 1 1 3 1 1 1 1 1 1 1 1 1 1 1 1 1 1 1 1 1 1 "
    ++ "1 1 1 1 1 1 1 1 1 1 1 1 10 1 1.2 1 1 1 1 4 1 2 1 3 1 1 1 1 1 1 1 1 1 1.5 1.5 1 1 1 1 1 1 1 "
    ++ "1.4 1 6 5 1 28 22315.26 1221.40 136.36 156.11 1.15 1.7 1.2 1770.51 3053.32 21888.32 26016.26 "
    ++ "26.26 26.26 26 1.2 2 2.2 2.4 1.8 26.26 26.2 1.4 2.8 1.7 27.2 1.4 1.5 1 3.7 27.26 26.26 26.26 "
    ++ "26.26 26.26 26.26 30.25 33.25 33.25 33.25 33.25 33 4405.34 2062.26 6.26 6.26"⟩,
  ⟨["Lower", "Lowercase"],
    "97.26 47 10 4 36.24 1.8 1 1 1 1 1 1 1 1 1 1 1 1 1 1 1 1 1 1 1 1 1 1 1 1 1 1 1 1.2 1 1 1 1 1 "
    ++ "1 1 1.2 1 1 1 1 1 1 1 1 1 1 1 1 1 1 1 1 1 1 1 1 1 1 1 2 1 1.3 2 1 2 3.2 4 2 3.3 2 2 1 1 2 "
    ++ "1.2 1 2 3 1 2.2 2.3 6 2 2 1 1 1 1 1 1 1 1.2 1 1 1 1 1 1 1 1 1.2 2 1 3 1 1 1 1 1 1 1 1 1 1 1 "
    ++ "1 1 1 1 1 1 1 1 1 1 1 1 1 1 1 1 1 1.7 2 2.2 1 4 1 1 1 1.69 1.36 7.2 30.5 96 43 1 3 2.4 18 "
    ++ "27.35 1.2 3.3 1 1 1 1 1 1 1 1 1 1 1 1.5 1 2 2.2 51.48 1 1 1 1 1 1 1 1 1 1 1 1 1 1 1 1 1 9 1 "
    ++ "1 1 1 1 1 1 1 1 1 1 1 1 1 1 1 1 1 1 1 1 1 1 1 1 1 2 1 1 1 1 1 1.2 1 1 1 1 1 1 1 1 1 1 1 1 1 "
    ++ "1 1 1 1 1 1 1 1 1 1 1 1 1 1 1 1 1 1 1 1 1 1 1 1 1 1 1 1 1 1 1 1 1 1 1 48.41 2887.43 1.4 "
    ++ "760.6 2178.9 119.192 65 1 1 1 1 1 1 1 1 1 1 1 1 1 1 1 1 1 1 1 1 1 1 1 1 1 1 1 1 1 1 1 1 1 1 "
    ++ "1 1 1 1 1 1 1 1 1 1 1 1 1 1 1 1 1 1 1 1 1 1 1 1 1 1 1 1 1 1 1 1 1 1 1 1 1 1 1 1.9 1 1 1 1 1 "
    ++ "1 1 1 1 1 1 1 1 1 1 1 1 1 1 1 1 1 1 1 1 1 1 1 1 1 1 1 1 1 1 1 1 1 1 1 1 1 1 1 1 1 1 1 1.9 "
    ++ "8.6 10.8 8.8 8.6 10.8 8.8 8.14 2.8 8.8 8.8 8.5 1.2 6 3.3 1.2 8.4 2.2 8.8 10.3 1.2 121 13 "
    ++ "16.13 109 3.2 3 27 4 4 2.2 8.4 4 33.16 4 843.26 1862.48 1 3.2 1 1 1 4 1.2 1.8 3 1 1 1 1 1 1 "
    ++ "1 1 1 1 1 1 1 1 1 1 1 1 1 1 1 1 1 1 1 1 1 1 1 1 1 1 1 1 1 1 1 1 1 1 1 1 1 1 1 1 1 1 1.2 7 1 "
    ++ "4 12.38 1 5 30995 1 1 1 1 1 1 1 1 1 1 1 1 1 1 1 1 1 1 1 1 1 1 19 1 1 1 1 1 1 1 1 1 1 1 1 1.3 "
    ++ "133 1 1 1 1 1 1.3 1 1 1 1 1 1 1 1 1 1 1 1 1 1 1 1 1 1 1 1 1 1 1 1 1 1 1 1 1 1 1.10 1 1 2 1 1 "
    ++ "1 1 4 1 2 1.3 1 1 1 1 1 1 1 1 1 1 5 5 1 1 1 1 1 1 1 4 1 6 1 1 1 1 24.3 1 1.3 821.43 1.14 "
    ++ "6.80 20288.7 12.5 1065.26 1229.40 136.36 155.11 1.15 1.7 1.2 451 2.3 1.42 1.9 1285.51 "
    ++ "3021.32 21888.32 26010.26 26.7 1.18 26.26 26.4 1 1.7 1.11 26.26 26.26 26.26 26.26 26.26 "
    ++ "26.26 26.26 26.26 26.28 28.25 1.6 26.25 1.6 26.25 1.6 26.25 1.6 26.25 1.6 1 1844.10 1.20 6.6 "
    ++ "261.62 2228.34"⟩,
  ⟨["IDS", "ID_Start"],
    "65.26 6.26 47 10 4 5.23 1.31 1.458 4.12 14.5 7 1 129.5 1.2 2.4 1 6 1.3 1 1.20 1.83 1.139 "
    ++ "8.166 1.38 2 6.41 71.27 4.4 45.43 35.2 1.99 1 15.2 7.2 10.3 2 16 1.30 29.89 11 24.33 9.2 4 "
    ++ "5.22 4 9 3 23.25 7.11 5.24 1.6 17.42 58.54 3 18 7.10 15.16 4.8 2.2 2.22 1.7 1 3.4 3 16 13.2 "
    ++ "1.3 14.2 10 8.6 4.2 2.22 1.7 1.2 1.2 1.2 31.4 1 19.3 16.9 1.3 1.22 1.7 1.2 1.5 3 18 15.2 23 "
    ++ "11.8 2.2 2.22 1.7 1.2 1.5 3 30.2 1.3 15 17 1.6 3.3 1.4 3.2 1 1.2 3.2 3.3 3.12 22 52.8 1.3 "
    ++ "1.23 1.16 3 26.3 2 2.2 30 4.8 1.3 1.23 1.10 1.5 3 31.2 1.2 15.2 17.9 1.3 1.41 2 16 5.3 8.3 "
    ++ "24.6 5.18 3.24 1.9 1 2.7 58.48 1.2 12.7 58.2 1 1.5 1.24 1 1.10 1.2 9 2.5 1 21.4 32 63.8 1.36 "
    ++ "27.5 115.43 20 16.6 4.4 3 3.2 7.3 4.13 12 17.38 1 5 2.43 1.333 1.4 2.7 1 1.4 2.41 1.4 2.33 "
    ++ "1.4 2.7 1 1.4 2.15 1.57 1.4 2.67 37.16 16.86 2.6 3.620 2.17 1.26 5.75 3.11 7.18 13.19 14.18 "
    ++ "14.13 1.3 15.52 35 4 67.89 7.41 1 5.70 10.31 49.30 2.5 11.44 4.26 54.23 9.53 82 93.47 17.8 "
    ++ "54.30 13.2 10.44 26.36 41.3 10.36 2.9 7.43 2.3 41.4 1.6 1.2 3 5.192 64.278 2.6 2.38 2.6 2.8 "
    ++ "1 1 1 1.31 2.53 1.7 1 3.3 1.7 3.4 2.6 4.13 5.3 1.7 116 13 16.13 101 4 2.10 1 2.6 6 1 1 1.16 "
    ++ "2.4 5.5 4 17.41 2679.229 6.4 3.2 12.38 1 5 2.56 7 16.23 9.7 1.7 1.7 1.7 1.7 1.7 1.7 1.7 "
    ++ "550.3 25.9 7.5 2.5 4.86 4.5 1.90 1.4 5.43 1.94 17.32 48.16 512.6592 64.22157 67.46 2.269 "
    ++ "3.16 10.2 20.47 16.31 2.80 39.9 2.103 2.64 5.2 1 1.5 24.16 1.3 1.4 1.23 29.52 14.50 62.6 3 "
    ++ "1.2 11.28 10.23 25.29 7.47 28 16.5 1.10 10.5 1.41 23.3 1.8 20.23 3 3.50 1 3.2 2.5 2 1 24.3 "
    ++ "2.11 7.3 12.6 2.6 2.6 9.7 1.7 1.43 1.14 6.115 29.11172 12.23 4.49 8452.366 2.106 38.7 12.5 5 "
    ++ "1.10 1.13 1.5 1 1.2 1.2 1.108 33.363 18.64 2.54 40.12 116.5 1.135 36.26 6.26 11.89 3.6 2.6 "
    ++ "2.6 2.3 35.12 1.26 1.19 1.2 1.15 2.14 34.123 69.53 267.29 3.49 47.32 13.30 5.38 10.30 2.36 "
    ++ "4.8 1.5 42.158 18.36 4.36 4.40 8.52 12.11 1.15 1.7 1.2 1.11 1.15 1.7 1.2 67.311 9.22 10.8 "
    ++ "24.6 1.42 1.9 69.6 2 1.44 1.2 3 2.23 10.23 9.31 65.19 1.2 10.22 10.26 70.56 6.2 64 15.4 1.3 "
    ++ "1.29 42.29 3.29 35.8 1.28 27.54 10.22 10.19 13.18 110.73 55.51 13.51 13.36 348.42 6.2 78.29 "
    ++ "10 8.22 42.18 46.21 27.23 12.53 57.2 2 13.45 32.25 26.36 29 2 8.35 3 12.48 14.4 21 1 35.18 "
    ++ "1.25 19.2 63.7 1 1.4 1.15 1.10 7.47 38.8 2.2 2.22 1.7 1.2 1.5 3 18 12.5 158.53 18.4 20.3 "
    ++ "30.48 20.2 1 184.47 41.4 36.48 20 59.43 13 71.27 37.7 185.44 116.64 31.8 2 2.8 1.2 1.24 15 1 "
    ++ "94.8 2.39 16 1 28 10.40 7 21 11.46 19 18.73 263.9 1.37 17 49.30 112.7 1.2 1.38 21 25.6 1.2 "
    ++ "1.32 14 327.19 15 1.13 1.34 124 79.922 102.111 17.196 2636.97 15.1072 17.6 4025.583 8633.569 "
    ++ "7.31 17.79 17.30 18.48 16.4 31.21 5.19 688.64 128.75 5 66.13 64.2 1 28.6136 8.1238 42.9 "
    ++ "8935.4 1.7 1.2 1.291 15 29.3 2 14.4 8.396 2308.107 5.13 3.9 7.10 5990.85 1.71 1.2 2 2.2 2.4 "
    ++ "1.12 1 1.7 1.65 1.4 2.8 1.7 1.28 1.4 1.5 1 3.7 1.340 2.25 1.25 1.31 1.25 1.31 1.25 1.31 1.25 "
    ++ "1.31 1.25 1.8 1844.31 6.6 261.62 146.45 10.7 16 321.30 18.44 484.28 756.7 1.4 1.2 1.15 1.197 "
    ++ "59.68 7 1204.4 1.27 1.2 1 2 1.10 1.4 1 1 6 4 1 1 1.3 1.2 1 2 1 1 1 1 1.2 1 2.4 1.7 1.4 1.4 1 "
    ++ "1.10 1.17 5.3 1.5 1.17 4420.42720 32.4154 6.222 2.5762 14.7473 3103.542 1506.4939 5.4192"⟩,
  ⟨["IDC", "ID_Continue"],
    "48.10 7.26 4 1.26 47 10 1 2 5.23 1.31 1.458 4.12 14.5 7 1 17.117 1.2 2.4 1 6.5 1 1.20 1.83 "
    ++ "1.139 1.5 2.166 1.38 2 6.41 8.45 1 1.2 1.2 1 8.27 4.4 29.11 5.74 4.102 1.8 2.10 1.19 2 16.59 "
    ++ "2.101 14.54 4 2 2.46 18.28 4.11 5.24 1.6 9.74 1.129 2.10 1.19 1.8 2.2 2.22 1.7 1 3.4 2.9 2.2 "
    ++ "2.4 8 4.2 1.5 2.12 10 1 2.3 1.6 4.2 2.22 1.7 1.2 1.2 1.2 2 1.5 4.2 2.3 3 7.4 1 7.16 11.3 1.9 "
    ++ "1.3 1.22 1.7 1.2 1.5 2.10 1.3 1.3 2 15.4 2.10 9.7 1.3 1.8 2.2 2.22 1.7 1.2 1.5 2.9 2.2 2.3 "
    ++ "7.3 4.2 1.5 2.10 1 16.2 1.6 3.3 1.4 3.2 1 1.2 3.2 3.3 3.12 4.5 3.3 1.4 2 6 14.10 16.13 1.3 "
    ++ "1.23 1.16 2.9 1.3 1.4 7.2 1.3 2 2.4 2.10 16.4 1.8 1.3 1.23 1.10 1.5 2.9 1.3 1.4 7.2 6.2 1.4 "
    ++ "2.10 1.3 12.13 1.3 1.51 1.3 1.5 5.4 7.5 2.10 10.6 1.3 1.18 3.24 1.9 1 2.7 3 4.6 1 1.8 6.10 "
    ++ "2.2 13.58 5.15 1.10 39.2 1 1.5 1.24 1 1.23 2.5 1 1.7 1.10 2.4 32 23.2 6.10 11 1 1 4.10 1.36 "
    ++ "4.20 1.18 1.36 9 57.74 6.78 2.38 1 5 2.43 1.333 1.4 2.7 1 1.4 2.41 1.4 2.33 1.4 2.7 1 1.4 "
    ++ "2.15 1.57 1.4 2.67 2.3 9.9 14.16 16.86 2.6 3.620 2.17 1.26 5.75 3.11 7.22 9.22 11.20 12.13 "
    ++ "1.3 1.2 12.84 3 4.2 2.10 33.3 1.11 6.89 7.43 5.70 10.31 1.12 4.12 10.40 2.5 11.44 4.26 6.11 "
    ++ "37.28 4.63 1.29 2.11 6.10 13 8.14 1.16 49.77 3.10 17.9 12.116 12.56 8.10 3.49 2.9 7.43 2.3 "
    ++ "16.3 1.39 5.534 2.6 2.38 2.6 2.8 1 1 1 1.31 2.53 1.7 1 3.3 1.7 3.4 2.6 4.13 5.3 1.7 66.2 19 "
    ++ "28 13 16.13 51.13 4 3.12 17 4 2.10 1 2.6 6 1 1 1.16 2.4 5.5 4 17.41 2679.229 6.9 12.38 1 5 "
    ++ "2.56 7 15.24 9.7 1.7 1.7 1.7 1.7 1.7 1.7 1.7 1.32 517.3 25.15 1.5 2.5 4.86 2.7 1.90 1.4 5.43 "
    ++ "1.94 17.32 48.16 512.6592 64.22157 67.46 2.269 3.28 20.48 4.10 1.115 37.9 2.103 2.64 5.2 1 "
    ++ "1.5 24.54 4 19.52 12.70 10.10 6.24 3 1.49 2.36 12.29 3.65 14.11 6.31 1.55 9.14 2.10 6.23 "
    ++ "3.73 24.3 2.16 2.5 10.6 2.6 2.6 9.7 1.7 1.43 1.14 6.123 1.2 2.10 6.11172 12.23 4.49 8452.366 "
    ++ "2.106 38.7 12.5 5.12 1.13 1.5 1 1.2 1.2 1.108 33.363 18.64 2.54 40.12 4.16 16.16 3.2 24.3 "
    ++ "32.5 1.135 19.10 7.26 4 1.26 11.89 3.6 2.6 2.6 2.3 35.12 1.26 1.19 1.2 1.15 2.14 34.123 "
    ++ "69.53 136 130.29 3.49 15 31.32 13.30 5.43 5.30 2.36 4.8 1.5 42.158 2.10 6.36 4.36 4.40 8.52 "
    ++ "12.11 1.15 1.7 1.2 1.11 1.15 1.7 1.2 67.311 9.22 10.8 24.6 1.42 1.9 69.6 2 1.44 1.2 3 2.23 "
    ++ "10.23 9.31 65.19 1.2 10.22 10.26 70.56 6.2 64.4 1.2 5.8 1.3 1.29 2.3 4 32.29 3.29 35.8 1.30 "
    ++ "25.54 10.22 10.19 13.18 110.73 55.51 13.51 13.40 8.10 326.42 1.2 3.2 75.32 10 8.33 31.22 "
    ++ "42.21 27.23 9.71 31.16 9.60 7 13.25 7.10 6.53 1.10 4.4 8.36 2 9.69 4.4 1.13 1 35.18 1.37 6.4 "
    ++ "62.7 1 1.4 1.15 1.10 7.59 5.10 6.4 1.8 2.2 2.22 1.7 1.2 1.5 1.10 2.2 2.3 2 6 5.7 2.7 3.5 "
    ++ "139.75 5.10 4.4 30.70 1 8.10 166.54 2.9 23.6 34.65 3 11.10 38.57 7.10 54.27 2.15 4.10 6.7 "
    ++ "185.59 101.74 21.8 2 2.8 1.2 1.30 1.2 2.9 12.10 70.8 2.46 2.8 1.2 27.63 8 8.74 3 18.73 263.9 "
    ++ "1.45 1.9 15.10 24.30 2.22 1.14 73.7 1.2 1.44 3 1.2 1.9 8.10 6.6 1.2 1.37 1.2 1.6 7.10 310.23 "
    ++ "9.17 1.41 3.5 13.10 86 79.922 102.111 17.196 2636.97 15.1072 16.22 4010.583 8633.569 7.31 "
    ++ "1.10 6.79 1.10 6.30 2.5 11.55 9.4 12.10 9.21 5.19 688.64 128.75 4.57 7.17 64.2 1.2 11.2 "
    ++ "14.6136 8.1238 42.9 8935.4 1.7 1.2 1.291 15 29.3 2 14.4 8.396 2308.107 5.13 3.9 7.10 3.2 "
    ++ "4705.46 2.23 542.5 3.6 8.8 2.7 30.4 148.3 443.85 1.71 1.2 2 2.2 2.4 1.12 1 1.7 1.65 1.4 2.8 "
    ++ "1.7 1.28 1.4 1.5 1 3.7 1.340 2.25 1.25 1.31 1.25 1.31 1.25 1.31 1.25 1.31 1.25 1.8 2.50 "
    ++ "512.55 4.50 8 14 22.5 1.15 1104.31 6.6 213.7 1.17 2.7 1.2 1.5 5.62 33 112.45 3.14 2.10 4 "
    ++ "321.31 17.58 470.42 742.7 1.4 1.2 1.15 1.197 11.7 41.76 4.10 1190.4 1.27 1.2 1 2 1.10 1.4 1 "
    ++ "1 6 4 1 1 1.3 1.2 1 2 1 1 1 1 1.2 1 2.4 1.7 1.4 1.4 1 1.10 1.17 5.3 1.5 1.17 3380.10 "
    ++ "1030.42720 32.4154 6.222 2.5762 14.7473 3103.542 1506.4939 5.4192 712016.240"⟩,
  ⟨["XIDS", "XID_Start"],
    "65.26 6.26 47 10 4 5.23 1.31 1.458 4.12 14.5 7 1 129.5 1.2 3.3 1 6 1.3 1 1.20 1.83 1.139 "
    ++ "8.166 1.38 2 6.41 71.27 4.4 45.43 35.2 1.99 1 15.2 7.2 10.3 2 16 1.30 29.89 11 24.33 9.2 4 "
    ++ "5.22 4 9 3 23.25 7.11 5.24 1.6 17.42 58.54 3 18 7.10 15.16 4.8 2.2 2.22 1.7 1 3.4 3 16 13.2 "
    ++ "1.3 14.2 10 8.6 4.2 2.22 1.7 1.2 1.2 1.2 31.4 1 19.3 16.9 1.3 1.22 1.7 1.2 1.5 3 18 15.2 23 "
    ++ "11.8 2.2 2.22 1.7 1.2 1.5 3 30.2 1.3 15 17 1.6 3.3 1.4 3.2 1 1.2 3.2 3.3 3.12 22 52.8 1.3 "
    ++ "1.23 1.16 3 26.3 2 2.2 30 4.8 1.3 1.23 1.10 1.5 3 31.2 1.2 15.2 17.9 1.3 1.41 2 16 5.3 8.3 "
    ++ "24.6 5.18 3.24 1.9 1 2.7 58.48 1 13.7 58.2 1 1.5 1.24 1 1.10 1 10 2.5 1 21.4 32 63.8 1.36 "
    ++ "27.5 115.43 20 16.6 4.4 3 3.2 7.3 4.13 12 17.38 1 5 2.43 1.333 1.4 2.7 1 1.4 2.41 1.4 2.33 "
    ++ "1.4 2.7 1 1.4 2.15 1.57 1.4 2.67 37.16 16.86 2.6 3.620 2.17 1.26 5.75 3.11 7.18 13.19 14.18 "
    ++ "14.13 1.3 15.52 35 4 67.89 7.41 1 5.70 10.31 49.30 2.5 11.44 4.26 54.23 9.53 82 93.47 17.8 "
    ++ "54.30 13.2 10.44 26.36 41.3 10.36 2.9 7.43 2.3 41.4 1.6 1.2 3 5.192 64.278 2.6 2.38 2.6 2.8 "
    ++ "1 1 1 1.31 2.53 1.7 1 3.3 1.7 3.4 2.6 4.13 5.3 1.7 116 13 16.13 101 4 2.10 1 2.6 6 1 1 1.16 "
    ++ "2.4 5.5 4 17.41 2679.229 6.4 3.2 12.38 1 5 2.56 7 16.23 9.7 1.7 1.7 1.7 1.7 1.7 1.7 1.7 "
    ++ "550.3 25.9 7.5 2.5 4.86 6.3 1.90 1.4 5.43 1.94 17.32 48.16 512.6592 64.22157 67.46 2.269 "
    ++ "3.16 10.2 20.47 16.31 2.80 39.9 2.103 2.64 5.2 1 1.5 24.16 1.3 1.4 1.23 29.52 14.50 62.6 3 "
    ++ "1.2 11.28 10.23 25.29 7.47 28 16.5 1.10 10.5 1.41 23.3 1.8 20.23 3 3.50 1 3.2 2.5 2 1 24.3 "
    ++ "2.11 7.3 12.6 2.6 2.6 9.7 1.7 1.43 1.14 6.115 29.11172 12.23 4.49 8452.366 2.106 38.7 12.5 5 "
    ++ "1.10 1.13 1.5 1 1.2 1.2 1.108 33.139 6.218 18.64 2.54 40.10 119 1 3 1 1 1 1.126 36.26 6.26 "
    ++ "11.56 2.31 3.6 2.6 2.6 2.3 35.12 1.26 1.19 1.2 1.15 2.14 34.123 69.53 267.29 3.49 47.32 "
    ++ "13.30 5.38 10.30 2.36 4.8 1.5 42.158 18.36 4.36 4.40 8.52 12.11 1.15 1.7 1.2 1.11 1.15 1.7 "
    ++ "1.2 67.311 9.22 10.8 24.6 1.42 1.9 69.6 2 1.44 1.2 3 2.23 10.23 9.31 65.19 1.2 10.22 10.26 "
    ++ "70.56 6.2 64 15.4 1.3 1.29 42.29 3.29 35.8 1.28 27.54 10.22 10.19 13.18 110.73 55.51 13.51 "
    ++ "13.36 348.42 6.2 78.29 10 8.22 42.18 46.21 27.23 12.53 57.2 2 13.45 32.25 26.36 29 2 8.35 3 "
    ++ "12.48 14.4 21 1 35.18 1.25 19.2 63.7 1 1.4 1.15 1.10 7.47 38.8 2.2 2.22 1.7 1.2 1.5 3 18 "
    ++ "12.5 158.53 18.4 20.3 30.48 20.2 1 184.47 41.4 36.48 20 59.43 13 71.27 37.7 185.44 116.64 "
    ++ "31.8 2 2.8 1.2 1.24 15 1 94.8 2.39 16 1 28 10.40 7 21 11.46 19 18.73 263.9 1.37 17 49.30 "
    ++ "112.7 1.2 1.38 21 25.6 1.2 1.32 14 327.19 15 1.13 1.34 124 79.922 102.111 17.196 2636.97 "
    ++ "15.1072 17.6 4025.583 8633.569 7.31 17.79 17.30 18.48 16.4 31.21 5.19 688.64 128.75 5 66.13 "
    ++ "64.2 1 28.6136 8.1238 42.9 8935.4 1.7 1.2 1.291 15 29.3 2 14.4 8.396 2308.107 5.13 3.9 7.10 "
    ++ "5990.85 1.71 1.2 2 2.2 2.4 1.12 1 1.7 1.65 1.4 2.8 1.7 1.28 1.4 1.5 1 3.7 1.340 2.25 1.25 "
    ++ "1.31 1.25 1.31 1.25 1.31 1.25 1.31 1.25 1.8 1844.31 6.6 261.62 146.45 10.7 16 321.30 18.44 "
    ++ "484.28 756.7 1.4 1.2 1.15 1.197 59.68 7 1204.4 1.27 1.2 1 2 1.10 1.4 1 1 6 4 1 1 1.3 1.2 1 2 "
    ++ "1 1 1 1 1.2 1 2.4 1.7 1.4 1.4 1 1.10 1.17 5.3 1.5 1.17 4420.42720 32.4154 6.222 2.5762 "
    ++ "14.7473 3103.542 1506.4939 5.4192"⟩,
  ⟨["XIDC", "XID_Continue"],
    "48.10 7.26 4 1.26 47 10 1 2 5.23 1.31 1.458 4.12 14.5 7 1 17.117 1.2 3.3 1 6.5 1 1.20 1.83 "
    ++ "1.139 1.5 2.166 1.38 2 6.41 8.45 1 1.2 1.2 1 8.27 4.4 29.11 5.74 4.102 1.8 2.10 1.19 2 16.59 "
    ++ "2.101 14.54 4 2 2.46 18.28 4.11 5.24 1.6 9.74 1.129 2.10 1.19 1.8 2.2 2.22 1.7 1 3.4 2.9 2.2 "
    ++ "2.4 8 4.2 1.5 2.12 10 1 2.3 1.6 4.2 2.22 1.7 1.2 1.2 1.2 2 1.5 4.2 2.3 3 7.4 1 7.16 11.3 1.9 "
    ++ "1.3 1.22 1.7 1.2 1.5 2.10 1.3 1.3 2 15.4 2.10 9.7 1.3 1.8 2.2 2.22 1.7 1.2 1.5 2.9 2.2 2.3 "
    ++ "7.3 4.2 1.5 2.10 1 16.2 1.6 3.3 1.4 3.2 1 1.2 3.2 3.3 3.12 4.5 3.3 1.4 2 6 14.10 16.13 1.3 "
    ++ "1.23 1.16 2.9 1.3 1.4 7.2 1.3 2 2.4 2.10 16.4 1.8 1.3 1.23 1.10 1.5 2.9 1.3 1.4 7.2 6.2 1.4 "
    ++ "2.10 1.3 12.13 1.3 1.51 1.3 1.5 5.4 7.5 2.10 10.6 1.3 1.18 3.24 1.9 1 2.7 3 4.6 1 1.8 6.10 "
    ++ "2.2 13.58 5.15 1.10 39.2 1 1.5 1.24 1 1.23 2.5 1 1.7 1.10 2.4 32 23.2 6.10 11 1 1 4.10 1.36 "
    ++ "4.20 1.18 1.36 9 57.74 6.78 2.38 1 5 2.43 1.333 1.4 2.7 1 1.4 2.41 1.4 2.33 1.4 2.7 1 1.4 "
    ++ "2.15 1.57 1.4 2.67 2.3 9.9 14.16 16.86 2.6 3.620 2.17 1.26 5.75 3.11 7.22 9.22 11.20 12.13 "
    ++ "1.3 1.2 12.84 3 4.2 2.10 33.3 1.11 6.89 7.43 5.70 10.31 1.12 4.12 10.40 2.5 11.44 4.26 6.11 "
    ++ "37.28 4.63 1.29 2.11 6.10 13 8.14 1.16 49.77 3.10 17.9 12.116 12.56 8.10 3.49 2.9 7.43 2.3 "
    ++ "16.3 1.39 5.534 2.6 2.38 2.6 2.8 1 1 1 1.31 2.53 1.7 1 3.3 1.7 3.4 2.6 4.13 5.3 1.7 66.2 19 "
    ++ "28 13 16.13 51.13 4 3.12 17 4 2.10 1 2.6 6 1 1 1.16 2.4 5.5 4 17.41 2679.229 6.9 12.38 1 5 "
    ++ "2.56 7 15.24 9.7 1.7 1.7 1.7 1.7 1.7 1.7 1.7 1.32 517.3 25.15 1.5 2.5 4.86 2.2 2.3 1.90 1.4 "
    ++ "5.43 1.94 17.32 48.16 512.6592 64.22157 67.46 2.269 3.28 20.48 4.10 1.115 37.9 2.103 2.64 "
    ++ "5.2 1 1.5 24.54 4 19.52 12.70 10.10 6.24 3 1.49 2.36 12.29 3.65 14.11 6.31 1.55 9.14 2.10 "
    ++ "6.23 3.73 24.3 2.16 2.5 10.6 2.6 2.6 9.7 1.7 1.43 1.14 6.123 1.2 2.10 6.11172 12.23 4.49 "
    ++ "8452.366 2.106 38.7 12.5 5.12 1.13 1.5 1 1.2 1.2 1.108 33.139 6.218 18.64 2.54 40.10 6.16 "
    ++ "16.16 3.2 24.3 33 1 3 1 1 1 1.126 19.10 7.26 4 1.26 11.89 3.6 2.6 2.6 2.3 35.12 1.26 1.19 "
    ++ "1.2 1.15 2.14 34.123 69.53 136 130.29 3.49 15 31.32 13.30 5.43 5.30 2.36 4.8 1.5 42.158 2.10 "
    ++ "6.36 4.36 4.40 8.52 12.11 1.15 1.7 1.2 1.11 1.15 1.7 1.2 67.311 9.22 10.8 24.6 1.42 1.9 69.6 "
    ++ "2 1.44 1.2 3 2.23 10.23 9.31 65.19 1.2 10.22 10.26 70.56 6.2 64.4 1.2 5.8 1.3 1.29 2.3 4 "
    ++ "32.29 3.29 35.8 1.30 25.54 10.22 10.19 13.18 110.73 55.51 13.51 13.40 8.10 326.42 1.2 3.2 "
    ++ "75.32 10 8.33 31.22 42.21 27.23 9.71 31.16 9.60 7 13.25 7.10 6.53 1.10 4.4 8.36 2 9.69 4.4 "
    ++ "1.13 1 35.18 1.37 6.4 62.7 1 1.4 1.15 1.10 7.59 5.10 6.4 1.8 2.2 2.22 1.7 1.2 1.5 1.10 2.2 "
    ++ "2.3 2 6 5.7 2.7 3.5 139.75 5.10 4.4 30.70 1 8.10 166.54 2.9 23.6 34.65 3 11.10 38.57 7.10 "
    ++ "54.27 2.15 4.10 6.7 185.59 101.74 21.8 2 2.8 1.2 1.30 1.2 2.9 12.10 70.8 2.46 2.8 1.2 27.63 "
    ++ "8 8.74 3 18.73 263.9 1.45 1.9 15.10 24.30 2.22 1.14 73.7 1.2 1.44 3 1.2 1.9 8.10 6.6 1.2 "
    ++ "1.37 1.2 1.6 7.10 310.23 9.17 1.41 3.5 13.10 86 79.922 102.111 17.196 2636.97 15.1072 16.22 "
    ++ "4010.583 8633.569 7.31 1.10 6.79 1.10 6.30 2.5 11.55 9.4 12.10 9.21 5.19 688.64 128.75 4.57 "
    ++ "7.17 64.2 1.2 11.2 14.6136 8.1238 42.9 8935.4 1.7 1.2 1.291 15 29.3 2 14.4 8.396 2308.107 "
    ++ "5.13 3.9 7.10 3.2 4705.46 2.23 542.5 3.6 8.8 2.7 30.4 148.3 443.85 1.71 1.2 2 2.2 2.4 1.12 1 "
    ++ "1.7 1.65 1.4 2.8 1.7 1.28 1.4 1.5 1 3.7 1.340 2.25 1.25 1.31 1.25 1.31 1.25 1.31 1.25 1.31 "
    ++ "1.25 1.8 2.50 512.55 4.50 8 14 22.5 1.15 1104.31 6.6 213.7 1.17 2.7 1.2 1.5 5.62 33 112.45 "
    ++ "3.14 2.10 4 321.31 17.58 470.42 742.7 1.4 1.2 1.15 1.197 11.7 41.76 4.10 1190.4 1.27 1.2 1 2 "
    ++ "1.10 1.4 1 1 6 4 1 1 1.3 1.2 1 2 1 1 1 1 1.2 1 2.4 1.7 1.4 1.4 1 1.10 1.17 5.3 1.5 1.17 "
    ++ "3380.10 1030.42720 32.4154 6.222 2.5762 14.7473 3103.542 1506.4939 5.4192 712016.240"⟩,
  ⟨["Emoji", "Emoji"],
    "35 6 5.10 111 4 8077 12 216 22 90.6 15.2 367.2 12 166 25.11 4.3 199 231.2 10 9 58.4 1.5 9 2 "
    ++ "2.2 2 4 2 1.2 2 3 3.2 8.3 5 1 5.12 11.2 2 1.2 1 18 2.2 18.6 1 1.2 3.2 5 2.2 4.2 11.2 5.2 2 "
    ++ "5.2 1 1.2 20.2 5.6 1.4 2 4 2 2.6 1 2 1 1 6 3 6 10.2 15 2 4 1 4.3 1 11.2 48.3 9 14 14 372.2 "
    ++ "463.3 19.2 51 4 1242 12 601 1 114026 202 160.2 12.2 14 2.10 75.26 1.2 23 20 2.9 21.2 174.34 "
    ++ "2.112 2.2 1.3 2.83 2.3 1.263 1.63 11.6 1.24 7.2 2.8 12 2.4 2 4.2 13.2 2 8.2 9 5.3 12.3 8.3 2 "
    ++ "1 4 6 3 6.86 48.70 5.8 2.3 4.10 3 1.2 3 2.10 227.12 4 283.47 1.10 1.185 112.13 3.9 7.46 1.7 "
    ++ "8.14 4.9 7.9"⟩,
  ⟨["Math", "Math"],
    "43 16.3 31 29 1 45 4 37 31 728.3 2 26.2 2.3 527.3 6669 27.3 11 3 13 14.4 21.5 11.5 65.13 4 "
    ++ "3.2 4.5 18 4 2.10 1 2.6 6 3.2 2.2 1.3 1.6 3.14 1 68.24 1.6 1.2 4.2 4.32 1 6.2 14.268 8.4 "
    ++ "20.2 90 30.27 1 24 11.7 445.2 12.10 4.6 4.2 2.2 3.5 14 1 2.6 11.8 5.2 57 1 29.4 9.3 336.64 "
    ++ "256.512 48.21 2.6 53212 823.6 1 162 16.3 29 1 29 1 131 6.4 54291.85 1.71 1.2 2 2.2 2.4 1.12 "
    ++ "1 1.7 1.65 1.4 2.8 1.7 1.28 1.4 1.5 1 3.7 1.340 2.292 2.50 5632.4 1.27 1.2 1 2 1.10 1.4 1 1 "
    ++ "6 4 1 1 1.3 1.2 1 2 1 1 1 1 1.2 1 2.4 1.7 1.4 1.4 1 1.10 1.17 5.3 1.5 1.17 52.2"⟩,
  ⟨["Cased", "Cased"],
    "65.26 6.26 47 10 4 5.23 1.31 1.195 1.4 4.208 1.36 7.2 30.5 96 42.4 2.2 2.4 1 6 1.3 1 1.20 "
    ++ "1.83 1.139 8.166 1.38 9.41 2839.38 1 5 2.43 1.4 672.86 2.6 2178.9 7.43 2.3 64.192 64.278 2.6 "
    ++ "2.38 2.6 2.8 1 1 1 1.31 2.53 1.7 1 3.3 1.7 3.4 2.6 4.13 5.3 1.7 116 13 16.13 101 4 2.10 1 "
    ++ "3.5 6 1 1 1.4 1.6 4 2.4 5.5 4 17.32 3.2 817.52 1814.229 6.4 3.2 12.38 1 5 30994.46 18.30 "
    ++ "132.102 3.4 1.59 5.2 1 1.5 24.5 1.3 821.43 1.14 6.80 20288.7 12.5 1033.26 6.26 1189.80 96.36 "
    ++ "4.36 116.11 1.15 1.7 1.2 1.11 1.15 1.7 1.2 451 2.3 1.42 1.9 1221.51 13.51 2989.64 21856.64 "
    ++ "25984.85 1.71 1.2 2 2.2 2.4 1.12 1 1.7 1.65 1.4 2.8 1.7 1.28 1.4 1.5 1 3.7 1.340 2.25 1.25 "
    ++ "1.31 1.25 1.31 1.25 1.31 1.25 1.31 1.25 1.8 1844.10 1.20 6.6 261.62 2194.68 2028.26 6.26 "
    ++ "6.26"⟩,
  ⟨["Dash", "Dash"],
    "45 1372 51 3649 1029 2057.6 61 39 15 390 3076 2 31.2 4 28 446 19 111 52624.2 37 10 169 3999"⟩,
  ⟨["Hex", "Hex_Digit"],
    "48.10 7.6 26.6 65193.10 7.6 26.6"⟩,
  ⟨["AHex", "ASCII_Hex_Digit"],
    "48.10 7.6 26.6"⟩,
  ⟨["Ideo", "Ideographic"],
    "12294.2 25.9 14.3 965.6592 64.20992 22784.366 2.106 29962 27.6136 8.1238 42.9 9319.396 "
    ++ "19716.42720 32.4154 6.222 2.5762 14.7473 3103.542 1506.4939 5.4192"⟩,
  ⟨["Dia", "Diacritic"],
    "94 1 71 6 4 2.2 503.159 1.8 5.6 17.2 4 9.2 253.5 209 55.17 1.27 1 1.2 1 134.8 4.2 134.2 4.2 "
    ++ "3.3 67.27 91.11 58.11 34.2 126.8 41.10 16.28 61 16 3.4 28 74 16 110 16 110 16 47.3 60 16 7 "
    ++ "119 110 16 110 16 109.2 16 124 124.6 1 107 13.5 75.2 27 1 1 4.2 66.3 1.2 62 112 1.2 40.2 4.5 "
    ++ "25.7 1 10.2 705.3 948.2 179.11 9 347.3 313.8 2 48.15 2.11 104 15 38.9 54.2 138.2 64.6 82.25 "
    ++ "4 6 2.3 50.63 89.12 37.11 445 1.3 11.3 13.3 13.3 13.2 3312.3 317 506.6 105.4 95 30066 12.2 1 "
    ++ "28.2 82.2 14.34 102.3 109.2 202 27.18 57.4 36 95 12 36 149.3 65.4 51 100.5 9.3 128.2 20272 "
    ++ "769.16 270 1 47 45.2 67 764 1183.6 1.42 1.9 810.2 571.6 469.3 70.11 49.4 192 41 72.2 120.2 "
    ++ "62 76 9.3 104.2 178.2 81 16 24.7 3.5 205 3 123.2 251.2 126 118.2 115 269.2 258.2 4 156 83 18 "
    ++ "81 421 258 1.2 81 5807.15 13978.5 59.7 1112.17 80.2 16382.4 1.7 1.2 7937.46 2.23 544.3 3.6 "
    ++ "8.8 2.7 30.4 3714.62 194.7 375 61.4 1504.7 109.3 1.3"⟩,
  ⟨["Gr_Ext", "Grapheme_Extend"],
    "768.112 275.7 263.45 1 1.2 1.2 1 72.11 48.21 16 101.7 2.6 2.2 1.4 35 30.27 91.11 58.9 9 24.4 "
    ++ "1.9 1.3 1.5 43.3 60.8 42.24 1.32 55 1 4.8 4 3.7 10.2 29 58 1 2.4 8 9 10.2 26 2.2 57 4.2 4.2 "
    ++ "2.3 3 30.2 3 11.2 57 4.5 1.2 4 20.2 22.6 1 58 1.2 1.4 8 7.3 10.2 30 59 1 12 9 40 3 55 1.3 "
    ++ "5.3 1.4 7.2 11.2 29 58 2 2 3 5.2 7.2 11.2 28.2 57.2 1 2.4 8 9 10.2 29 72 4 2.3 1 8 81 2.7 "
    ++ "12.8 98 2.9 11.7 73.2 27 1 1 55.14 1.5 1.2 5.11 1.36 9 102.4 1.6 1.2 2.2 25.2 4.3 16.4 13 "
    ++ "2.2 6 15 703.3 946.3 29.2 30.2 30.2 64.2 1.7 8 2.11 9 45.3 1 117.2 34 118.3 4.2 9 6.3 219.2 "
    ++ "2 58 1.7 1 1 2.8 6.10 2 48.31 49.4 48.7 1 5 40.9 12.2 32.4 2.2 1.3 56 1.2 3 1.3 58.8 2.2 "
    ++ "152.3 1.13 1.7 4 6 3.2 198.64 524 195.33 3070.3 141 96.32 554.6 105.2 30164.4 1.10 32.2 80.2 "
    ++ "272 3 4 25.2 5 151.2 26.18 13 38.8 25.11 46.3 48 2.4 2.2 39 67.6 2.2 2.2 12 8 47 51 1.3 2.2 "
    ++ "5.2 1 42.2 8 238 2 4 20272 737.16 16.16 366.2 605 226 149.5 1670.3 1.2 5.4 40.3 4 165.2 "
    ++ "573.4 387.2 80.3 70.11 49.4 123 54.15 41 2.2 10.3 49.4 2.2 7 61.3 36.5 1.8 62 12.2 52.9 10.4 "
    ++ "2 95.3 2 1.2 6 2 157 3.8 21.2 57.2 1 1 22 14.7 3.5 195.8 2.3 1 23 81 2.6 1 2 1.2 1.2 235 2.4 "
    ++ "6.2 1.2 27.2 85.8 2 1.2 106 1 2.6 1 101.3 2.4 1.5 259.9 1.2 245 10.2 1 4 144.4 2.2 4 32.10 "
    ++ "40.6 2.4 8 9.6 2.3 46.13 1.2 406.7 1.6 1 82.22 2.7 1.2 1.2 122.6 3 1.2 1.7 1 72.2 3 1 347.2 "
    ++ "11.2 52.5 5 1 5373 6.15 13978.5 59.7 1048 63.4 81 19640.2 4705.46 2.23 542 1.3 4.5 8.8 2.7 "
    ++ "30.4 148.3 1979.55 4.50 8 14 22.5 1.15 1360.7 1.17 2.7 1.2 1.5 100 160.7 375 61.4 508.4 "
    ++ "992.7 109.7 792277.96 128.240"⟩,
  ⟨["WSpace", "White_Space", "Space"],
    "9.5 18 100 26 5599 2431.11 29.2 5 47 4000"⟩,
  ⟨["Join_C", "Join_Control"],
    "8204.2"⟩,
  ⟨["QMark", "Quotation_Mark"],
    "34 4 131 15 8028.8 25.2 3591 457.4 13.3 52769.4 189 4 90.2"⟩]

/-- The simple case foldings. -/
def foldings : String :=
  "65.26.1.97 181.1.1.956 192.23.1.224 216.7.1.248 256.24.2.257 306.3.2.307 313.8.2.314 "
  ++ "330.23.2.331 376.1.1.255 377.3.2.378 383.1.1.115 385.1.1.595 386.2.2.387 390.1.1.596 "
  ++ "391.1.1.392 393.2.1.598 395.1.1.396 398.1.1.477 399.1.1.601 400.1.1.603 401.1.1.402 "
  ++ "403.1.1.608 404.1.1.611 406.1.1.617 407.1.1.616 408.1.1.409 412.1.1.623 413.1.1.626 "
  ++ "415.1.1.629 416.3.2.417 422.1.1.640 423.1.1.424 425.1.1.643 428.1.1.429 430.1.1.648 "
  ++ "431.1.1.432 433.2.1.650 435.2.2.436 439.1.1.658 440.1.1.441 444.1.1.445 452.1.1.454 "
  ++ "453.1.1.454 455.1.1.457 456.1.1.457 458.1.1.460 459.9.2.460 478.9.2.479 497.1.1.499 "
  ++ "498.2.2.499 502.1.1.405 503.1.1.447 504.20.2.505 544.1.1.414 546.9.2.547 570.1.1.11365 "
  ++ "571.1.1.572 573.1.1.410 574.1.1.11366 577.1.1.578 579.1.1.384 580.1.1.649 581.1.1.652 "
  ++ "582.5.2.583 837.1.1.953 880.2.2.881 886.1.1.887 895.1.1.1011 902.1.1.940 904.3.1.941 "
  ++ "908.1.1.972 910.2.1.973 913.17.1.945 931.9.1.963 962.1.1.963 975.1.1.983 976.1.1.946 "
  ++ "977.1.1.952 981.1.1.966 982.1.1.960 984.12.2.985 1008.1.1.954 1009.1.1.961 1012.1.1.952 "
  ++ "1013.1.1.949 1015.1.1.1016 1017.1.1.1010 1018.1.1.1019 1021.3.1.891 1024.16.1.1104 "
  ++ "1040.32.1.1072 1120.17.2.1121 1162.27.2.1163 1216.1.1.1231 1217.7.2.1218 1232.48.2.1233 "
  ++ "1329.38.1.1377 4256.38.1.11520 4295.1.1.11559 4301.1.1.11565 5112.6.1.5104 7296.1.1.1074 "
  ++ "7297.1.1.1076 7298.1.1.1086 7299.2.1.1089 7301.1.1.1090 7302.1.1.1098 7303.1.1.1123 "
  ++ "7304.1.1.42571 7312.43.1.4304 7357.3.1.4349 7680.75.2.7681 7835.1.1.7777 7838.1.1.223 "
  ++ "7840.48.2.7841 7944.8.1.7936 7960.6.1.7952 7976.8.1.7968 7992.8.1.7984 8008.6.1.8000 "
  ++ "8025.4.2.8017 8040.8.1.8032 8072.8.1.8064 8088.8.1.8080 8104.8.1.8096 8120.2.1.8112 "
  ++ "8122.2.1.8048 8124.1.1.8115 8126.1.1.953 8136.4.1.8050 8140.1.1.8131 8147.1.1.912 "
  ++ "8152.2.1.8144 8154.2.1.8054 8163.1.1.944 8168.2.1.8160 8170.2.1.8058 8172.1.1.8165 "
  ++ "8184.2.1.8056 8186.2.1.8060 8188.1.1.8179 8486.1.1.969 8490.1.1.107 8491.1.1.229 "
  ++ "8498.1.1.8526 8544.16.1.8560 8579.1.1.8580 9398.26.1.9424 11264.48.1.11312 11360.1.1.11361 "
  ++ "11362.1.1.619 11363.1.1.7549 11364.1.1.637 11367.3.2.11368 11373.1.1.593 11374.1.1.625 "
  ++ "11375.1.1.592 11376.1.1.594 11378.1.1.11379 11381.1.1.11382 11390.2.1.575 11392.50.2.11393 "
  ++ "11499.2.2.11500 11506.1.1.11507 42560.23.2.42561 42624.14.2.42625 42786.7.2.42787 "
  ++ "42802.31.2.42803 42873.2.2.42874 42877.1.1.7545 42878.5.2.42879 42891.1.1.42892 "
  ++ "42893.1.1.613 42896.2.2.42897 42902.10.2.42903 42922.1.1.614 42923.1.1.604 42924.1.1.609 "
  ++ "42925.1.1.620 42926.1.1.618 42928.1.1.670 42929.1.1.647 42930.1.1.669 42931.1.1.43859 "
  ++ "42932.8.2.42933 42948.1.1.42900 42949.1.1.642 42950.1.1.7566 42951.2.2.42952 42960.1.1.42961 "
  ++ "42966.2.2.42967 42997.1.1.42998 43888.80.1.5024 64261.1.1.64262 65313.26.1.65345 "
  ++ "66560.40.1.66600 66736.36.1.66776 66928.19.2.66967 66929.5.2.66968 66941.7.2.66980 "
  ++ "66957.3.2.66996 66965.1.1.67004 68736.51.1.68800 71840.32.1.71872 93760.32.1.93792 "
  ++ "125184.34.1.125218"

end Bindery.Unicode
