import SpaMigration.Text.Table

/-!
# Upper-case letters

The Unicode property `Uppercase`. Title-case letters do not have it.
-/
namespace SpaMigration.Text

/-- `Uppercase` above the ASCII range. -/
def uppercaseTable : Table :=
  ⟨#[
    (192, 214), (216, 222), (256, 256), (258, 258), (260, 260), (262, 262), (264, 264), (266,
    266), (268, 268), (270, 270), (272, 272), (274, 274), (276, 276), (278, 278), (280, 280),
    (282, 282), (284, 284), (286, 286), (288, 288), (290, 290), (292, 292), (294, 294), (296,
    296), (298, 298), (300, 300), (302, 302), (304, 304), (306, 306), (308, 308), (310, 310),
    (313, 313), (315, 315), (317, 317), (319, 319), (321, 321), (323, 323), (325, 325), (327,
    327), (330, 330), (332, 332), (334, 334), (336, 336), (338, 338), (340, 340), (342, 342),
    (344, 344), (346, 346), (348, 348), (350, 350), (352, 352), (354, 354), (356, 356), (358,
    358), (360, 360), (362, 362), (364, 364), (366, 366), (368, 368), (370, 370), (372, 372),
    (374, 374), (376, 377), (379, 379), (381, 381), (385, 386), (388, 388), (390, 391), (393,
    395), (398, 401), (403, 404), (406, 408), (412, 413), (415, 416), (418, 418), (420, 420),
    (422, 423), (425, 425), (428, 428), (430, 431), (433, 435), (437, 437), (439, 440), (444,
    444), (452, 452), (455, 455), (458, 458), (461, 461), (463, 463), (465, 465), (467, 467),
    (469, 469), (471, 471), (473, 473), (475, 475), (478, 478), (480, 480), (482, 482), (484,
    484), (486, 486), (488, 488), (490, 490), (492, 492), (494, 494), (497, 497), (500, 500),
    (502, 504), (506, 506), (508, 508), (510, 510), (512, 512), (514, 514), (516, 516), (518,
    518), (520, 520), (522, 522), (524, 524), (526, 526), (528, 528), (530, 530), (532, 532),
    (534, 534), (536, 536), (538, 538), (540, 540), (542, 542), (544, 544), (546, 546), (548,
    548), (550, 550), (552, 552), (554, 554), (556, 556), (558, 558), (560, 560), (562, 562),
    (570, 571), (573, 574), (577, 577), (579, 582), (584, 584), (586, 586), (588, 588), (590,
    590), (880, 880), (882, 882), (886, 886), (895, 895), (902, 902), (904, 906), (908, 908),
    (910, 911), (913, 929), (931, 939), (975, 975), (978, 980), (984, 984), (986, 986), (988,
    988), (990, 990), (992, 992), (994, 994), (996, 996), (998, 998), (1000, 1000), (1002,
    1002), (1004, 1004), (1006, 1006), (1012, 1012), (1015, 1015), (1017, 1018), (1021, 1071),
    (1120, 1120), (1122, 1122), (1124, 1124), (1126, 1126), (1128, 1128), (1130, 1130), (1132,
    1132), (1134, 1134), (1136, 1136), (1138, 1138), (1140, 1140), (1142, 1142), (1144, 1144),
    (1146, 1146), (1148, 1148), (1150, 1150), (1152, 1152), (1162, 1162), (1164, 1164), (1166,
    1166), (1168, 1168), (1170, 1170), (1172, 1172), (1174, 1174), (1176, 1176), (1178, 1178),
    (1180, 1180), (1182, 1182), (1184, 1184), (1186, 1186), (1188, 1188), (1190, 1190), (1192,
    1192), (1194, 1194), (1196, 1196), (1198, 1198), (1200, 1200), (1202, 1202), (1204, 1204),
    (1206, 1206), (1208, 1208), (1210, 1210), (1212, 1212), (1214, 1214), (1216, 1217), (1219,
    1219), (1221, 1221), (1223, 1223), (1225, 1225), (1227, 1227), (1229, 1229), (1232, 1232),
    (1234, 1234), (1236, 1236), (1238, 1238), (1240, 1240), (1242, 1242), (1244, 1244), (1246,
    1246), (1248, 1248), (1250, 1250), (1252, 1252), (1254, 1254), (1256, 1256), (1258, 1258),
    (1260, 1260), (1262, 1262), (1264, 1264), (1266, 1266), (1268, 1268), (1270, 1270), (1272,
    1272), (1274, 1274), (1276, 1276), (1278, 1278), (1280, 1280), (1282, 1282), (1284, 1284),
    (1286, 1286), (1288, 1288), (1290, 1290), (1292, 1292), (1294, 1294), (1296, 1296), (1298,
    1298), (1300, 1300), (1302, 1302), (1304, 1304), (1306, 1306), (1308, 1308), (1310, 1310),
    (1312, 1312), (1314, 1314), (1316, 1316), (1318, 1318), (1320, 1320), (1322, 1322), (1324,
    1324), (1326, 1326), (1329, 1366), (4256, 4293), (4295, 4295), (4301, 4301), (5024, 5109),
    (7312, 7354), (7357, 7359), (7680, 7680), (7682, 7682), (7684, 7684), (7686, 7686), (7688,
    7688), (7690, 7690), (7692, 7692), (7694, 7694), (7696, 7696), (7698, 7698), (7700, 7700),
    (7702, 7702), (7704, 7704), (7706, 7706), (7708, 7708), (7710, 7710), (7712, 7712), (7714,
    7714), (7716, 7716), (7718, 7718), (7720, 7720), (7722, 7722), (7724, 7724), (7726, 7726),
    (7728, 7728), (7730, 7730), (7732, 7732), (7734, 7734), (7736, 7736), (7738, 7738), (7740,
    7740), (7742, 7742), (7744, 7744), (7746, 7746), (7748, 7748), (7750, 7750), (7752, 7752),
    (7754, 7754), (7756, 7756), (7758, 7758), (7760, 7760), (7762, 7762), (7764, 7764), (7766,
    7766), (7768, 7768), (7770, 7770), (7772, 7772), (7774, 7774), (7776, 7776), (7778, 7778),
    (7780, 7780), (7782, 7782), (7784, 7784), (7786, 7786), (7788, 7788), (7790, 7790), (7792,
    7792), (7794, 7794), (7796, 7796), (7798, 7798), (7800, 7800), (7802, 7802), (7804, 7804),
    (7806, 7806), (7808, 7808), (7810, 7810), (7812, 7812), (7814, 7814), (7816, 7816), (7818,
    7818), (7820, 7820), (7822, 7822), (7824, 7824), (7826, 7826), (7828, 7828), (7838, 7838),
    (7840, 7840), (7842, 7842), (7844, 7844), (7846, 7846), (7848, 7848), (7850, 7850), (7852,
    7852), (7854, 7854), (7856, 7856), (7858, 7858), (7860, 7860), (7862, 7862), (7864, 7864),
    (7866, 7866), (7868, 7868), (7870, 7870), (7872, 7872), (7874, 7874), (7876, 7876), (7878,
    7878), (7880, 7880), (7882, 7882), (7884, 7884), (7886, 7886), (7888, 7888), (7890, 7890),
    (7892, 7892), (7894, 7894), (7896, 7896), (7898, 7898), (7900, 7900), (7902, 7902), (7904,
    7904), (7906, 7906), (7908, 7908), (7910, 7910), (7912, 7912), (7914, 7914), (7916, 7916),
    (7918, 7918), (7920, 7920), (7922, 7922), (7924, 7924), (7926, 7926), (7928, 7928), (7930,
    7930), (7932, 7932), (7934, 7934), (7944, 7951), (7960, 7965), (7976, 7983), (7992, 7999),
    (8008, 8013), (8025, 8025), (8027, 8027), (8029, 8029), (8031, 8031), (8040, 8047), (8120,
    8123), (8136, 8139), (8152, 8155), (8168, 8172), (8184, 8187), (8450, 8450), (8455, 8455),
    (8459, 8461), (8464, 8466), (8469, 8469), (8473, 8477), (8484, 8484), (8486, 8486), (8488,
    8488), (8490, 8493), (8496, 8499), (8510, 8511), (8517, 8517), (8544, 8559), (8579, 8579),
    (9398, 9423), (11264, 11311), (11360, 11360), (11362, 11364), (11367, 11367), (11369,
    11369), (11371, 11371), (11373, 11376), (11378, 11378), (11381, 11381), (11390, 11392),
    (11394, 11394), (11396, 11396), (11398, 11398), (11400, 11400), (11402, 11402), (11404,
    11404), (11406, 11406), (11408, 11408), (11410, 11410), (11412, 11412), (11414, 11414),
    (11416, 11416), (11418, 11418), (11420, 11420), (11422, 11422), (11424, 11424), (11426,
    11426), (11428, 11428), (11430, 11430), (11432, 11432), (11434, 11434), (11436, 11436),
    (11438, 11438), (11440, 11440), (11442, 11442), (11444, 11444), (11446, 11446), (11448,
    11448), (11450, 11450), (11452, 11452), (11454, 11454), (11456, 11456), (11458, 11458),
    (11460, 11460), (11462, 11462), (11464, 11464), (11466, 11466), (11468, 11468), (11470,
    11470), (11472, 11472), (11474, 11474), (11476, 11476), (11478, 11478), (11480, 11480),
    (11482, 11482), (11484, 11484), (11486, 11486), (11488, 11488), (11490, 11490), (11499,
    11499), (11501, 11501), (11506, 11506), (42560, 42560), (42562, 42562), (42564, 42564),
    (42566, 42566), (42568, 42568), (42570, 42570), (42572, 42572), (42574, 42574), (42576,
    42576), (42578, 42578), (42580, 42580), (42582, 42582), (42584, 42584), (42586, 42586),
    (42588, 42588), (42590, 42590), (42592, 42592), (42594, 42594), (42596, 42596), (42598,
    42598), (42600, 42600), (42602, 42602), (42604, 42604), (42624, 42624), (42626, 42626),
    (42628, 42628), (42630, 42630), (42632, 42632), (42634, 42634), (42636, 42636), (42638,
    42638), (42640, 42640), (42642, 42642), (42644, 42644), (42646, 42646), (42648, 42648),
    (42650, 42650), (42786, 42786), (42788, 42788), (42790, 42790), (42792, 42792), (42794,
    42794), (42796, 42796), (42798, 42798), (42802, 42802), (42804, 42804), (42806, 42806),
    (42808, 42808), (42810, 42810), (42812, 42812), (42814, 42814), (42816, 42816), (42818,
    42818), (42820, 42820), (42822, 42822), (42824, 42824), (42826, 42826), (42828, 42828),
    (42830, 42830), (42832, 42832), (42834, 42834), (42836, 42836), (42838, 42838), (42840,
    42840), (42842, 42842), (42844, 42844), (42846, 42846), (42848, 42848), (42850, 42850),
    (42852, 42852), (42854, 42854), (42856, 42856), (42858, 42858), (42860, 42860), (42862,
    42862), (42873, 42873), (42875, 42875), (42877, 42878), (42880, 42880), (42882, 42882),
    (42884, 42884), (42886, 42886), (42891, 42891), (42893, 42893), (42896, 42896), (42898,
    42898), (42902, 42902), (42904, 42904), (42906, 42906), (42908, 42908), (42910, 42910),
    (42912, 42912), (42914, 42914), (42916, 42916), (42918, 42918), (42920, 42920), (42922,
    42926), (42928, 42932), (42934, 42934), (42936, 42936), (42938, 42938), (42940, 42940),
    (42942, 42942), (42944, 42944), (42946, 42946), (42948, 42951), (42953, 42953), (42960,
    42960), (42966, 42966), (42968, 42968), (42997, 42997), (65313, 65338), (66560, 66599),
    (66736, 66771), (66928, 66938), (66940, 66954), (66956, 66962), (66964, 66965), (68736,
    68786), (71840, 71871), (93760, 93791), (119808, 119833), (119860, 119885), (119912,
    119937), (119964, 119964), (119966, 119967), (119970, 119970), (119973, 119974), (119977,
    119980), (119982, 119989), (120016, 120041), (120068, 120069), (120071, 120074), (120077,
    120084), (120086, 120092), (120120, 120121), (120123, 120126), (120128, 120132), (120134,
    120134), (120138, 120144), (120172, 120197), (120224, 120249), (120276, 120301), (120328,
    120353), (120380, 120405), (120432, 120457), (120488, 120512), (120546, 120570), (120604,
    120628), (120662, 120686), (120720, 120744), (120778, 120778), (125184, 125217), (127280,
    127305), (127312, 127337), (127344, 127369)]⟩

/-- A letter in upper case. -/
def isUppercase (c : Char) : Bool :=
  if c.val < 128 then c.isUpper else uppercaseTable.contains c

end SpaMigration.Text
