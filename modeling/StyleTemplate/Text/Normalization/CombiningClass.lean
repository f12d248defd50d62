/-
  **Combining classes.**

  The Unicode property Canonical_Combining_Class: zero for the symbols that
  marks attach to (starters), and for a mark the number that tells which marks
  may change places with it.
-/
import StyleTemplate.Text.Normalization.Notation

namespace StyleTemplate

/-- All symbols of a class other than zero, as ranges with their class. -/
def combiningClassRanges : List String :=
  ["0300..0314;230 0315;232 0316..0319;220 031A;232 031B;216 031C..0320;220 0321..0322;202",
   "0323..0326;220 0327..0328;202 0329..0333;220 0334..0338;1 0339..033C;220 033D..033F;230",
   "0342;230 0345;240 0346;230 0347..0349;220 034A..034C;230 034D..034E;220 0350..0352;230",
   "0353..0356;220 0357;230 0358;232 0359..035A;220 035B;230 035C;233 035D..035E;234 035F;233",
   "0360..0361;234 0362;233 0363..036F;230 0483..0487;230 0591;220 0592..0595;230 0596;220",
   "0597..0599;230 059A;222 059B;220 059C..05A1;230 05A2..05A7;220 05A8..05A9;230 05AA;220",
   "05AB..05AC;230 05AD;222 05AE;228 05AF;230 05B0;10 05B1;11 05B2;12 05B3;13 05B4;14 05B5;15",
   "05B6;16 05B7;17 05B8;18 05B9..05BA;19 05BB;20 05BC;21 05BD;22 05BF;23 05C1;24 05C2;25",
   "05C4;230 05C5;220 05C7;18 05C8;10 05C9;21 0610..0617;230 0618;30 0619;31 061A;32 064B;27",
   "064C;28 064D;29 064E;30 064F;31 0650;32 0651;33 0652;34 0653..0654;230 0655..0656;220",
   "0657..065B;230 065C;220 065D..065E;230 065F;220 0670;35 06D6..06DC;230 06DF..06E2;230",
   "06E3;220 06E4;230 06E7..06E8;230 06EA;220 06EB..06EC;230 06ED;220 0711;36 0730;230 0731;220",
   "0732..0733;230 0734;220 0735..0736;230 0737..0739;220 073A;230 073B..073C;220 073D;230",
   "073E;220 073F..0741;230 0742;220 0743;230 0744;220 0745;230 0746;220 0747;230 0748;220",
   "0749..074A;230 07EB..07F1;230 07F2;220 07F3;230 07FD;220 0816..0819;230 081B..0823;230",
   "0825..0827;230 0829..082D;230 0859..085B;220 0897..0898;230 0899..089B;220 089C..089F;230",
   "08CA..08CE;230 08CF..08D3;220 08D4..08E1;230 08E3;220 08E4..08E5;230 08E6;220 08E7..08E8;230",
   "08E9;220 08EA..08EC;230 08ED..08EF;220 08F0;27 08F1;28 08F2;29 08F3..08F5;230 08F6;220",
   "08F7..08F8;230 08F9..08FA;220 08FB..08FF;230 093C;7 094D;9 0951;230 0952;220 0953..0954;230",
   "09BC;7 09CD;9 09FE;230 0A3C;7 0A4D;9 0ABC;7 0ACD;9 0B3C;7 0B4D;9 0BCD;9 0C3C;7 0C4D;9",
   "0C55;84 0C56;91 0CBC;7 0CCD;9 0D3B..0D3C;9 0D4D;9 0DCA;9 0E38..0E39;103 0E3A;9",
   "0E48..0E4B;107 0EB8..0EB9;118 0EBA;9 0EC8..0ECB;122 0F18..0F19;220 0F35;220 0F37;220",
   "0F39;216 0F71;129 0F72;130 0F74;132 0F7A..0F7D;130 0F80;130 0F82..0F83;230 0F84;9",
   "0F86..0F87;230 0FC6;220 1037;7 1039..103A;9 108D;220 135D..135F;230 1714..1715;9 1734;9",
   "17D2;9 17DD;230 18A9;228 1939;222 193A;230 193B;220 1A17;230 1A18;220 1A60;9 1A75..1A7C;230",
   "1A7F;220 1AB0..1AB4;230 1AB5..1ABA;220 1ABB..1ABC;230 1ABD;220 1ABF..1AC0;220 1AC1..1AC2;230",
   "1AC3..1AC4;220 1AC5..1AC9;230 1ACA;220 1ACB..1ADC;230 1ADD;220 1ADE..1AE5;230 1AE6;220",
   "1AE7..1AEA;230 1AEB;234 1AEC..1AED;230 1AEE..1AEF;220 1AF0;230 1B34;7 1B44;9 1B6B;230",
   "1B6C;220 1B6D..1B73;230 1BAA..1BAB;9 1BE6;7 1BF2..1BF3;9 1C37;7 1CD0..1CD2;230 1CD4;1",
   "1CD5..1CD9;220 1CDA..1CDB;230 1CDC..1CDF;220 1CE0;230 1CE2..1CE8;1 1CED;220 1CF4;230",
   "1CF8..1CF9;230 1DC0..1DC1;230 1DC2;220 1DC3..1DC9;230 1DCA;220 1DCB..1DCC;230 1DCD;234",
   "1DCE;214 1DCF;220 1DD0;202 1DD1..1DF5;230 1DF6;232 1DF7..1DF8;228 1DF9;220 1DFA;218 1DFB;230",
   "1DFC;233 1DFD;220 1DFE;230 1DFF;220 20D0..20D1;230 20D2..20D3;1 20D4..20D7;230 20D8..20DA;1",
   "20DB..20DC;230 20E1;230 20E5..20E6;1 20E7;230 20E8;220 20E9;230 20EA..20EB;1 20EC..20EF;220",
   "20F0;230 2CEF..2CF1;230 2D7F;9 2DE0..2DFF;230 302A;218 302B;228 302C;232 302D;222",
   "302E..302F;224 3099..309A;8 A66F;230 A674..A67D;230 A69E..A69F;230 A6F0..A6F1;230 A806;9",
   "A82C;9 A8C4;9 A8E0..A8F1;230 A92B..A92D;220 A953;9 A9B3;7 A9C0;9 AAB0;230 AAB2..AAB3;230",
   "AAB4;220 AAB7..AAB8;230 AABE..AABF;230 AAC1;230 AAF6;9 ABED;9 FB1E;26 FE20..FE26;230",
   "FE27..FE2D;220 FE2E..FE2F;230 101FD;220 102E0;220 10376..1037A;230 10A0D;220 10A0F;230",
   "10A38;230 10A39;1 10A3A;220 10A3F;9 10AE5;230 10AE6;220 10D24..10D27;230 10D69..10D6D;230",
   "10EAB..10EAC;230 10ECB;230 10ECC..10ECD;220 10ECE..10ECF;230 10EF0..10EF2;220 10EF3;230",
   "10EF4;220 10EF5;230 10EF6;220 10EF7..10EF9;230 10EFA..10EFB;220 10EFD..10EFF;220",
   "10F46..10F47;220 10F48..10F4A;230 10F4B;220 10F4C;230 10F4D..10F50;220 10F82;230 10F83;220",
   "10F84;230 10F85;220 11046;9 11070;9 1107F;9 110B9;9 110BA;7 11100..11102;230 11133..11134;9",
   "11173;7 111C0;9 111CA;7 11235;9 11236;7 112E9;7 112EA;9 1133B..1133C;7 1134D;9",
   "11366..1136C;230 11370..11374;230 113CE..113D0;9 11442;9 11446;7 1145E;230 114C2;9 114C3;7",
   "115BF;9 115C0;7 1163F;9 116B6;9 116B7;7 1172B;9 11839;9 1183A;7 1193D..1193E;9 11943;7",
   "119E0;9 11A34;9 11A47;9 11A99;9 11C3F;9 11D42;7 11D44..11D45;9 11D97;9 11F41..11F42;9",
   "1612F;9 16AF0..16AF4;1 16B30..16B36;230 16FF0..16FF1;6 1BC9E;1 1D127..1D128;220",
   "1D165..1D166;216 1D167..1D169;1 1D16D;226 1D16E..1D172;216 1D17B..1D182;220 1D185..1D189;230",
   "1D18A..1D18B;220 1D1AA..1D1AD;230 1D242..1D244;230 1D250..1D252;216 1D25B..1D25C;1 1D25F;216",
   "1D280..1D281;216 1E000..1E006;230 1E008..1E018;230 1E01B..1E021;230 1E023..1E024;230",
   "1E026..1E02A;230 1E08F;230 1E130..1E136;230 1E2AE;230 1E2EC..1E2EF;230 1E4EC..1E4ED;232",
   "1E4EE;220 1E4EF;230 1E5EE;230 1E5EF;220 1E6E3;230 1E6E6;230 1E6EE..1E6EF;230 1E6F5;230",
   "1E8D0..1E8D6;220 1E944..1E949;230 1E94A;7"]

/-- The classes of the symbols that have one other than zero. -/
def combiningClassTable : Std.HashMap Nat Nat :=
  (wordsOf combiningClassRanges).foldl
    (fun table word =>
      let (first, last, cls) := classRangeOfWord word
      (List.range' first (last + 1 - first)).foldl (fun table n => table.insert n cls) table)
    {}

/-- The combining class of a symbol.  No symbol below U+0300 is a mark. -/
def combiningClass (c : Char) : Nat :=
  if c.toNat < 0x300 then 0 else combiningClassTable.getD c.toNat 0

end StyleTemplate
